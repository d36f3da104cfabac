import Mudong.TcpConnection.Effects
import Mudong.TcpConnection.Moves

namespace mudong.ev

namespace Conn

/-- An open connection: it is connected or disconnecting, it has write interest exactly while it has a
backlog, and its channel is registered. -/
structure Open (c : Conn) : Prop where
  live : c.state_ = .kConnected ∨ c.state_ = .kDisconnecting
  mirror : c.channel_.isWriting = true ↔ c.outputBuffer_.readable ≠ []
  armed : c.channel_.Armed

theorem Open.not_disconnected {c : Conn} (h : c.Open) : c.state_ ≠ .kDisconnected := by
  obtain h | h := h.live <;> simp [h]

theorem interest_armed {c : Conn} (h : c.channel_.Armed) {op : InterestOp} (hop : op ≠ .disableAll) :
    (c.interest op).channel_.Armed := EPollPoller.updateChannel_armed h hop

theorem armed_rule : OutputRule fun c c' => c.channel_.Armed → c'.channel_.Armed where
  refl _ h := h
  trans h h' := h' ∘ h
  record _ _ _ _ _ h := h
  enableWrite _ h := interest_armed h (by simp)
  disableWrite _ h := interest_armed h (by simp)
  notice _ _ _ h := h

theorem mirrored_rule : OutputRule fun c c' => c.Mirrored → c'.Mirrored where
  refl _ h := h
  trans h h' := h' ∘ h
  record _ _ _ _ _ h := h
  enableWrite _ h := h.interest .enableWrite
  disableWrite _ h := h.interest .disableWrite
  notice _ _ _ h := h

theorem Mirrored.handleClose {c : Conn} (h : c.Mirrored) : c.handleClose.Mirrored :=
  Mirrored.interest (c := { c.check .handleClose (c.state_ = .kConnected ∨ c.state_ = .kDisconnecting) with
    state_ := .kDisconnected }) h .disableAll

/-- What a call in the loop thread does to an open connection as far as its dispatch is concerned: it stays
open with the same reported events, and write interest is not withdrawn. -/
structure Calm (c c' : Conn) : Prop where
  closes : c'.closes = c.closes
  revents_ : c'.channel_.revents_ = c.channel_.revents_
  opened : c.Open → c'.Open
  writing : c.Open → c.channel_.isWriting = true → c'.channel_.isWriting = true
  mirrored : c.Mirrored → c'.Mirrored

theorem Calm.refl (c : Conn) : Calm c c := ⟨rfl, rfl, id, fun _ => id, id⟩

theorem Calm.trans {c d e : Conn} (h : Calm c d) (h' : Calm d e) : Calm c e :=
  ⟨h'.closes.trans h.closes, h'.revents_.trans h.revents_, h'.opened ∘ h.opened,
    fun hopen hwriting => h'.writing (h.opened hopen) (h.writing hopen hwriting), h'.mirrored ∘ h.mirrored⟩

/-- Bookkeeping and the queue of the loop do not matter to an open connection. -/
theorem Calm.of_same {c c' : Conn}
    (h : (c'.closes, c'.channel_, c'.entry, c'.outputBuffer_) = (c.closes, c.channel_, c.entry, c.outputBuffer_))
    (hstate : c'.state_ = c.state_ ∨ c'.state_ = .kDisconnecting) : Calm c c' := by
  simp only [Prod.mk.injEq] at h
  obtain ⟨hclose, hchannel, hentry, hbuffer⟩ := h
  refine ⟨hclose, by rw [hchannel], ?_, fun _ h => by rw [hchannel]; exact h, ?_⟩
  · rintro ⟨hlive, hmirror, harmed⟩
    refine ⟨?_, by rw [hchannel, hbuffer]; exact hmirror, by rw [hchannel]; exact harmed⟩
    obtain h | h := hstate
    · rw [h]
      exact hlive
    · exact Or.inr h
  · intro h
    unfold Mirrored
    rw [hentry, hchannel]
    exact h

theorem sendInLoop_calm (c : Conn) (send : Send) (result : WriteResult) : Calm c (c.sendInLoop send result) := by
  have hframe := sendInLoop_frame c send result
  refine ⟨hframe.closes, hframe.revents_, ?_, ?_, mirrored_rule.sendInLoop c send result⟩
  · intro hopen
    obtain ⟨sent, kept, _, hreadable, hwriting, _⟩ := sendInLoop_spec hopen.not_disconnected send result
    refine ⟨by rw [hframe.state_]; exact hopen.live, ?_, armed_rule.sendInLoop c send result hopen.armed⟩
    rw [hreadable, hwriting]
    cases hw : c.channel_.isWriting with
    | true =>
      have hbacklog := hopen.mirror.mp hw
      simp [hbacklog]
    | false =>
      have hempty : c.outputBuffer_.readable = [] := by
        by_contra hne
        simp [hopen.mirror.mpr hne] at hw
      cases kept <;> simp [hempty]
  · intro hopen hw
    obtain ⟨sent, kept, _, _, hwriting, _⟩ := sendInLoop_spec hopen.not_disconnected send result
    rw [hwriting, hw, Bool.true_or]

theorem shutdownInLoop_calm (c : Conn) : Calm c c.shutdownInLoop := by
  unfold shutdownInLoop
  split
  · exact .of_same rfl (Or.inl rfl)
  · exact .refl c

theorem interest_calm (c : Conn) {op : InterestOp} (hop : op ≠ .disableAll)
    (hout : ∀ e, Mask.has (op.apply e) EPOLLOUT = Mask.has e EPOLLOUT) : Calm c (c.interest op) := by
  have hwriting : (c.interest op).channel_.isWriting = c.channel_.isWriting := by
    simp only [Channel.isWriting, interest_events_, hout]
  refine ⟨rfl, (interest_frame c op).revents_, ?_, fun _ h => hwriting.trans h, fun h => h.interest op⟩
  rintro ⟨hlive, hmirror, harmed⟩
  exact ⟨hlive, by rw [hwriting]; exact hmirror, interest_armed harmed hop⟩

theorem stopReadInLoop_calm (c : Conn) : Calm c c.stopReadInLoop := by
  unfold stopReadInLoop
  split
  · exact interest_calm c (by simp) InterestOp.has_out_disableRead
  · exact .refl c

theorem startReadInLoop_calm (c : Conn) : Calm c c.startReadInLoop := by
  unfold startReadInLoop
  split
  · exact .refl c
  · exact interest_calm c (by simp) InterestOp.has_out_enableRead

theorem sendChars_calm (c : Conn) (data : List UInt8) (result : WriteResult) : Calm c (c.sendChars data result) := by
  unfold sendChars
  split
  · exact .refl c
  · have hobserve (d : Conn) (send : Send) : Calm d (d.observe send) := .of_same rfl (Or.inl rfl)
    have hcomplete (d : Conn) (send : Send) : Calm d (d.complete send) := .of_same rfl (Or.inl rfl)
    exact (hobserve c _).trans ((sendInLoop_calm _ _ result).trans (hcomplete _ _))

theorem shutdown_calm (c : Conn) : Calm c c.shutdown := by
  unfold shutdown
  have hexchange : Calm c
      (((c.check .shutdown (c.state_ ≠ .kDisconnected)).follow .loop).stateAtomicGetAndSet .kDisconnecting).2 :=
    .of_same rfl (Or.inr rfl)
  dsimp only
  split
  · exact hexchange.trans (shutdownInLoop_calm _)
  · exact hexchange

theorem forceClose_calm (c : Conn) : Calm c c.forceClose := by
  unfold forceClose
  split
  · dsimp only
    split
    · exact .of_same rfl (Or.inr rfl)
    · exact .of_same rfl (Or.inr rfl)
  · exact .refl c

theorem callInLoop_calm (c : Conn) (result : WriteResult) (api : Api) : Calm c (c.callInLoop result api) := by
  cases api with
  | send payload =>
    rw [callInLoop, send_eq]
    exact sendChars_calm c payload.data result
  | shutdown => exact shutdown_calm c
  | forceClose => exact forceClose_calm c
  | stopRead => exact stopReadInLoop_calm c
  | startRead => exact startReadInLoop_calm c

/-- A step of the loop thread on its own behalf leaves the connection as open as it was, or closes it. -/
structure Settled (c c' : Conn) : Prop where
  opened : c'.closes = 0 → c.closes = 0 ∧ (c.Open → c'.Open)
  mirrored : c.Mirrored → c'.Mirrored
  revents_ : c'.channel_.revents_ = c.channel_.revents_

theorem Calm.settled {c c' : Conn} (h : Calm c c') : Settled c c' :=
  ⟨fun hclosed => ⟨h.closes.symm.trans hclosed, h.opened⟩, h.mirrored, h.revents_⟩

theorem handleClose_settled (c : Conn) : Settled c c.handleClose := by
  refine ⟨fun h => ?_, Mirrored.handleClose, EPollPoller.updateChannel_revents_ _⟩
  simp at h

theorem handleWrite_settled (c : Conn) (result : WriteResult) : Settled c (c.handleWrite result) := by
  have hframe := handleWrite_frame c result
  refine ⟨fun h => ⟨hframe.closes.symm.trans h, fun hopen => ?_⟩, mirrored_rule.handleWrite c result, hframe.revents_⟩
  obtain ⟨_, _, _, _, hmirror, _⟩ := handleWrite_spec hopen.not_disconnected result
  exact ⟨by rw [hframe.state_]; exact hopen.live, hmirror hopen.mirror, armed_rule.handleWrite c result hopen.armed⟩

theorem readInput_calm (c : Conn) (result : Buffer.ReadvResult) : Calm c (c.readInput result) :=
  .of_same rfl (Or.inl rfl)

theorem handleRead_settled (c : Conn) (result : Buffer.ReadvResult) : Settled c (c.handleRead result) := by
  have hread := readInput_calm c result
  unfold handleRead
  dsimp only
  split
  · exact hread.settled
  · split
    · obtain ⟨_, hmirrored, hrevents⟩ := handleClose_settled (c.readInput result)
      exact ⟨fun h => (by simp at h), fun h => hmirrored (hread.mirrored h), hrevents⟩
    · exact ⟨fun h => ⟨h, fun hopen => ⟨hopen.live, hopen.mirror, hopen.armed⟩⟩, id, rfl⟩

theorem forceCloseInLoop_settled (c : Conn) : Settled c c.forceCloseInLoop := by
  unfold forceCloseInLoop
  split
  · exact handleClose_settled c
  · exact (Calm.refl c).settled

theorem runTask_settled (c : Conn) (result : WriteResult) (task : Task) : Settled c (c.runTask result task) := by
  cases task with
  | sendInLoop send => exact (sendInLoop_calm c send result).settled
  | shutdownInLoop => exact (shutdownInLoop_calm c).settled
  | forceCloseInLoop => exact forceCloseInLoop_settled c
  | stopRead => exact (stopReadInLoop_calm c).settled
  | startRead => exact (startReadInLoop_calm c).settled
  | writeComplete => exact (Calm.refl c).settled
  | highWaterMark len => exact (Calm.refl c).settled
  | other => exact (Calm.refl c).settled

theorem runStage_settled (c : Conn) (read : Buffer.ReadvResult) (write : WriteResult) (stage : Stage) :
    Settled c (c.runStage read write stage) := by
  have hrefl := (Calm.refl c).settled
  cases stage with
  | onClose =>
    simp only [runStage]
    split
    · exact handleClose_settled c
    · exact hrefl
  | onError =>
    simp only [runStage]
    split <;> exact hrefl
  | onRead =>
    simp only [runStage]
    split
    · exact handleRead_settled c read
    · exact hrefl
  | onWrite =>
    simp only [runStage]
    split
    · exact handleWrite_settled c write
    · exact hrefl

/-- A read that does not close leaves write interest alone. -/
theorem handleRead_writing {c : Conn} {result : Buffer.ReadvResult} (hclosed : (c.handleRead result).closes = 0)
    (hwriting : c.channel_.isWriting = true) : (c.handleRead result).channel_.isWriting = true := by
  unfold handleRead at hclosed ⊢
  dsimp only at hclosed ⊢
  split
  · exact hwriting
  · rename_i hn
    rw [if_neg hn] at hclosed
    split
    · rename_i hn0
      rw [if_pos hn0] at hclosed
      simp at hclosed
    · exact hwriting

/-- Before the write callback a dispatch withdraws write interest only by closing. -/
theorem runStage_writing {c : Conn} {read : Buffer.ReadvResult} {write : WriteResult} {stage : Stage}
    (hstage : stage ≠ .onWrite) (hclosed : (c.runStage read write stage).closes = 0)
    (hwriting : c.channel_.isWriting = true) : (c.runStage read write stage).channel_.isWriting = true := by
  cases stage with
  | onClose =>
    simp only [runStage] at hclosed ⊢
    split at hclosed
    · simp at hclosed
    · rename_i hnot
      rw [if_neg hnot]
      exact hwriting
  | onError =>
    simp only [runStage]
    split <;> exact hwriting
  | onRead =>
    simp only [runStage] at hclosed ⊢
    split
    · rename_i hread
      rw [if_pos hread] at hclosed
      exact handleRead_writing hclosed hwriting
    · exact hwriting
  | onWrite => exact (hstage rfl).elim

end Conn

namespace World

/-- The invariant of every run. While no close has happened the connection is open, and a reported
`EPOLLOUT` that is still to be handled is not stale. -/
structure Inv (w : World) : Prop where
  mirrored : w.toConn.Mirrored
  opened : w.closes = 0 → w.toConn.Open
  fresh : w.closes = 0 → ∀ stage, w.phase = .handling (some stage) →
    Mask.has w.channel_.revents_ EPOLLOUT = true → w.channel_.isWriting = true

theorem established_inv (others wakeups : Nat) : (established others wakeups).Inv := by
  have hevents : (established others wakeups).channel_.events_ = InterestOp.enableRead.apply 0 :=
    Conn.interest_events_ _ _
  refine ⟨?_, fun _ => ⟨Or.inl rfl, ?_, rfl, by rw [hevents]; decide⟩, ?_⟩
  · exact Conn.Mirrored.interest (c := { (constructed others wakeups).toConn.check .connectEstablished
      ((constructed others wakeups).state_ = .kConnecting) with state_ := .kConnected }) rfl .enableRead
  · have hempty : (established others wakeups).outputBuffer_.readable = [] := ValidBuffer.readable_init _
    rw [hempty, Channel.isWriting, hevents, InterestOp.has_out_enableRead, Mask.has_zero]
    simp
  · intro _ stage hphase
    simp [established, constructed] at hphase

/-- Outside the dispatch only openness has to be kept. -/
private theorem Inv.settle {w w' : World} (hinv : w.Inv) (hsettled : Conn.Settled w.toConn w'.toConn)
    (hphase : ∀ stage, w'.phase ≠ .handling (some stage)) : w'.Inv :=
  ⟨hsettled.mirrored hinv.mirrored, fun h => (hsettled.opened h).2 (hinv.opened (hsettled.opened h).1),
    fun _ stage h => (hphase stage h).elim⟩

/-- A calm change keeps the invariant at whatever point of the dispatch it happens. -/
private theorem Inv.calm {w w' : World} (hinv : w.Inv) (hcalm : Conn.Calm w.toConn w'.toConn)
    (hphase : w'.phase = w.phase) : w'.Inv := by
  refine ⟨hcalm.mirrored hinv.mirrored, ?_, ?_⟩
  · intro hclosed
    exact hcalm.opened (hinv.opened (hcalm.closes.symm.trans hclosed))
  · intro hclosed stage hstage hout
    have hwas : w.closes = 0 := hcalm.closes.symm.trans hclosed
    rw [hcalm.revents_] at hout
    exact hcalm.writing (hinv.opened hwas) (hinv.fresh hwas stage (hphase.symm.trans hstage) hout)

theorem Inv.step {w w' : World} {l : Label} (hinv : w.Inv) (hstep : w.step l = some w') : w'.Inv := by
  cases step_moves hstep with
  | pollOther hphase => exact hinv.settle (Conn.Calm.refl _).settled (by simp)
  | poll hphase hreport =>
    rename_i revents_
    refine ⟨hinv.mirrored, fun h => ⟨(hinv.opened h).live, (hinv.opened h).mirror, (hinv.opened h).armed⟩, ?_⟩
    intro _ stage _ hout
    exact hinv.mirrored.reported hreport (by decide) hout
  | dispatch hphase hfits =>
    rename_i read write stage
    have hsettled := Conn.runStage_settled w.toConn read write stage
    refine ⟨hsettled.mirrored hinv.mirrored,
      fun h => (hsettled.opened h).2 (hinv.opened (hsettled.opened h).1), ?_⟩
    intro hclosed next hnext hout
    have hstage : stage ≠ .onWrite := by
      rintro rfl
      simp [Stage.next] at hnext
    have hwas := (hsettled.opened hclosed).1
    have hout' : Mask.has w.channel_.revents_ EPOLLOUT = true := by
      rw [← hsettled.revents_]
      exact hout
    exact Conn.runStage_writing hstage hclosed (hinv.fresh hwas stage hphase hout')
  | swap hphase =>
    refine hinv.settle (Conn.Calm.settled ?_) (by simp)
    exact .of_same rfl (Or.inl rfl)
  | task hphase htasks hfits =>
    refine hinv.settle (Conn.runTask_settled w.toConn _ _) ?_
    intro stage h
    simp [hphase] at h
  | endTasks hphase htasks =>
    refine hinv.settle (Conn.Calm.settled ?_) (by simp)
    exact .of_same rfl (Or.inl rfl)
  | call hphase hfits => exact hinv.calm (Conn.callInLoop_calm w.toConn _ _) rfl
  | useInput hphase => exact hinv.calm (.of_same rfl (Or.inl rfl)) rfl
  | setWriteCompleteCallback hphase => exact hinv.calm (.of_same rfl (Or.inl rfl)) rfl
  | setHighWaterMarkCallback hphase => exact hinv.calm (.of_same rfl (Or.inl rfl)) rfl
  | giveUpSend hidle hstate => exact hinv
  | startSend hidle hstate => exact hinv.calm (.of_same rfl (Or.inl rfl)) rfl
  | startShutdown hidle => exact hinv.calm (.of_same rfl (Or.inl rfl)) rfl
  | startForceClose hidle hstate => exact hinv.calm (.of_same rfl (Or.inl rfl)) rfl
  | giveUpForceClose hidle hstate => exact hinv
  | startStopRead hidle => exact hinv.calm (.of_same rfl (Or.inl rfl)) rfl
  | startStartRead hidle => exact hinv.calm (.of_same rfl (Or.inl rfl)) rfl
  | exchangeShutdown hcall => exact hinv.calm (.of_same rfl (Or.inr rfl)) rfl
  | exchangeForceClose hcall => exact hinv.calm (.of_same rfl (Or.inr rfl)) rfl
  | push hcall => exact hinv.calm (.of_same rfl (Or.inl rfl)) rfl
  | wakeup hcall => exact hinv.calm (.of_same rfl (Or.inl rfl)) rfl
  | pushOther => exact hinv.calm (.of_same rfl (Or.inl rfl)) rfl

end World

end mudong.ev
