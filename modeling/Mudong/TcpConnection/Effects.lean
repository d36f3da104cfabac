import Mudong.TcpConnection.Rules

namespace mudong.ev

/-- The sends waiting in a list of tasks. -/
def sendsIn (tasks : List Task) : List Send := tasks.flatMap World.completes

@[simp] theorem sendsIn_nil : sendsIn [] = [] := rfl

@[simp] theorem sendsIn_cons (task : Task) (tasks : List Task) :
    sendsIn (task :: tasks) = World.completes task ++ sendsIn tasks := rfl

@[simp] theorem sendsIn_append (tasks tasks' : List Task) :
    sendsIn (tasks ++ tasks') = sendsIn tasks ++ sendsIn tasks' := List.flatMap_append

namespace Conn

/-- What a step of the loop thread does to the records of the sends when it executes `ran`: it starts and
finishes no other send, and the sends in the queue stay. -/
structure SendFrame (ran : List Send) (c c' : Conn) : Prop where
  observed : c'.observed = c.observed
  completed : c'.completed = c.completed
  executed : c'.executed = c.executed ++ ran
  queued : sendsIn c'.pendingTasks_ = sendsIn c.pendingTasks_

theorem SendFrame.of_same {c c' : Conn}
    (h : (c'.observed, c'.completed, c'.executed, c'.pendingTasks_) =
      (c.observed, c.completed, c.executed, c.pendingTasks_)) : SendFrame [] c c' := by
  simp only [Prod.mk.injEq] at h
  obtain ⟨hobserved, hcompleted, hexecuted, hpending⟩ := h
  exact ⟨hobserved, hcompleted, by rw [hexecuted, List.append_nil], by rw [hpending]⟩

theorem SendFrame.trans {ran : List Send} {c d e : Conn} (h : SendFrame ran c d) (h' : SendFrame [] d e) :
    SendFrame ran c e :=
  ⟨h'.observed.trans h.observed, h'.completed.trans h.completed,
    by rw [h'.executed, List.append_nil, h.executed], h'.queued.trans h.queued⟩

/-- Output moreover leaves alone the state, the reported events and the closes. -/
structure OutputFrame (ran : List Send) (c c' : Conn) : Prop extends SendFrame ran c c' where
  state_ : c'.state_ = c.state_
  revents_ : c'.channel_.revents_ = c.channel_.revents_
  closes : c'.closes = c.closes

theorem OutputFrame.of_same {c c' : Conn}
    (h : (c'.observed, c'.completed, c'.executed, c'.pendingTasks_) =
      (c.observed, c.completed, c.executed, c.pendingTasks_))
    (h' : (c'.state_, c'.channel_.revents_, c'.closes) = (c.state_, c.channel_.revents_, c.closes)) :
    OutputFrame [] c c' := by
  simp only [Prod.mk.injEq] at h'
  obtain ⟨hstate, hrevents, hcloses⟩ := h'
  exact ⟨.of_same h, hstate, hrevents, hcloses⟩

theorem OutputFrame.refl (c : Conn) : OutputFrame [] c c := .of_same rfl rfl

theorem OutputFrame.trans {ran : List Send} {c d e : Conn} (h : OutputFrame ran c d) (h' : OutputFrame [] d e) :
    OutputFrame ran c e :=
  ⟨h.toSendFrame.trans h'.toSendFrame, h'.state_.trans h.state_, h'.revents_.trans h.revents_,
    h'.closes.trans h.closes⟩

theorem queueInLoop_frame (c : Conn) {task : Task} (htask : World.completes task = []) :
    OutputFrame [] c (c.queueInLoop task) := by
  refine ⟨⟨rfl, rfl, (List.append_nil _).symm, ?_⟩, rfl, rfl, rfl⟩
  simp [queueInLoop, htask]

theorem interest_frame (c : Conn) (op : InterestOp) : OutputFrame [] c (c.interest op) :=
  ⟨.of_same rfl, rfl, EPollPoller.updateChannel_revents_ _, rfl⟩

@[simp] theorem interest_events_ (c : Conn) (op : InterestOp) :
    (c.interest op).channel_.events_ = op.apply c.channel_.events_ := EPollPoller.updateChannel_events_ _

/-- The kernel's entry is the registered interest of the channel. -/
def Mirrored (c : Conn) : Prop := c.entry = if c.channel_.pooling then some c.channel_.events_ else none

theorem Mirrored.interest {c : Conn} (h : c.Mirrored) (op : InterestOp) : (c.interest op).Mirrored := by
  have hsome : c.entry.isSome = c.channel_.pooling := by
    rw [Mirrored] at h
    rw [h]
    cases c.channel_.pooling <;> rfl
  unfold Mirrored
  rw [interest_events_]
  exact EPollPoller.updateChannel_mirrors (c := { c.channel_ with events_ := op.apply c.channel_.events_ }) hsome

theorem Mirrored.reported {c : Conn} (h : c.Mirrored) {revents f : Events} (hreport : Reportable c.entry revents)
    (halways : Mask.has (EPOLLERR ||| EPOLLHUP) f = false) (hf : Mask.has revents f = true) :
    Mask.has c.channel_.events_ f = true := by
  rw [Mirrored] at h
  rw [h] at hreport
  cases hpooling : c.channel_.pooling with
  | false => simp [hpooling, Reportable] at hreport
  | true => exact reported_has (by simpa [hpooling, Reportable] using hreport) halways hf

theorem outputFrame_rule : OutputRule (OutputFrame []) where
  refl := .refl
  trans := .trans
  record _ _ _ _ _ := .of_same rfl rfl
  enableWrite c := interest_frame c .enableWrite
  disableWrite c := interest_frame c .disableWrite
  notice c task htask := queueInLoop_frame c (by cases task <;> simp_all [Task.isNotice, World.completes])

theorem shutdownInLoop_frame (c : Conn) : OutputFrame [] c c.shutdownInLoop := outputFrame_rule.shutdownInLoop c

theorem shutdownInLoop_same (c : Conn) :
    (c.shutdownInLoop.pendingTasks_, c.shutdownInLoop.outputBuffer_) = (c.pendingTasks_, c.outputBuffer_) := by
  unfold shutdownInLoop
  split <;> rfl

theorem sendInLoop_frame (c : Conn) (send : Send) (result : WriteResult) :
    OutputFrame [send] c (c.sendInLoop send result) := by
  have hrecord : OutputFrame [send] c { c with executed := c.executed ++ [send] } :=
    ⟨⟨rfl, rfl, rfl, rfl⟩, rfl, rfl, rfl⟩
  exact hrecord.trans (outputFrame_rule.sendInLoop c send result)

theorem handleWrite_frame (c : Conn) (result : WriteResult) : OutputFrame [] c (c.handleWrite result) :=
  outputFrame_rule.handleWrite c result

theorem stopReadInLoop_frame (c : Conn) : OutputFrame [] c c.stopReadInLoop := by
  unfold stopReadInLoop
  split
  · exact interest_frame c .disableRead
  · exact .refl c

theorem startReadInLoop_frame (c : Conn) : OutputFrame [] c c.startReadInLoop := by
  unfold startReadInLoop
  split
  · exact .refl c
  · exact interest_frame c .enableRead

/-- The direct write hands the first `n` bytes to the kernel and leaves the backlog alone. -/
theorem writeDirectly_spec (c : Conn) (data : List UInt8) (result : WriteResult) :
    ∃ d n faultError, c.writeDirectly data result = (d, n, data.length - n, faultError) ∧
      d.accepted = c.accepted ++ data.take n ∧ d.outputBuffer_ = c.outputBuffer_ ∧
      d.channel_ = c.channel_ ∧ d.entry = c.entry ∧ d.halfCloses = c.halfCloses ∧
      (c.channel_.isWriting = true → n = 0) ∧ (result.Broken = false → faultError = false) := by
  unfold writeDirectly
  split
  · exact ⟨c, 0, false, by simp⟩
  · rename_i hidle
    cases result with
    | failed errno =>
      refine ⟨_, 0, _, rfl, by simp [check], rfl, rfl, rfl, rfl, fun _ => rfl, ?_⟩
      intro hwhole
      have hnot : (errno == EPIPE || errno == ECONNRESET) = false := hwhole
      simp [hnot]
    | accepted n =>
      dsimp only
      split
      · exact ⟨_, n, false, rfl, rfl, rfl, rfl, rfl, rfl, fun h => (hidle h).elim, fun _ => rfl⟩
      · exact ⟨_, n, false, rfl, rfl, rfl, rfl, rfl, rfl, fun h => (hidle h).elim, fun _ => rfl⟩

/-- What is left over joins the backlog, and write interest is registered exactly when something is. -/
theorem bufferRest_spec (c : Conn) (data : List UInt8) (n : Nat) (faultError : Bool) :
    ∃ kept, (c.bufferRest data n (data.length - n) faultError).outputBuffer_.readable =
        c.outputBuffer_.readable ++ kept ∧
      (c.bufferRest data n (data.length - n) faultError).accepted = c.accepted ∧
      (c.bufferRest data n (data.length - n) faultError).halfCloses = c.halfCloses ∧
      (c.bufferRest data n (data.length - n) faultError).channel_.isWriting =
        (c.channel_.isWriting || !kept.isEmpty) ∧
      (faultError = false → kept = data.drop n) := by
  unfold bufferRest
  split
  · rename_i hrest
    have hlen : (data.drop n).length = data.length - n := List.length_drop
    have hkept : (data.drop n).take (data.length - n) = data.drop n := List.take_of_length_le hlen.le
    have hne : (data.drop n).isEmpty = false := by
      rw [List.isEmpty_eq_false_iff, ← List.length_pos_iff]
      omega
    refine ⟨data.drop n, ?_, ?_, ?_, ?_, fun _ => rfl⟩
    all_goals dsimp only [enableWrite, interest, check]
    · rw [ValidBuffer.readable_append, hkept]
      split <;> rfl
    · split <;> rfl
    · split <;> rfl
    · simp [Channel.isWriting, hne]
  · rename_i hnone
    refine ⟨[], by simp, rfl, rfl, by simp, ?_⟩
    intro hfault
    apply Eq.symm
    apply List.drop_eq_nil_of_le
    simp only [hfault, true_and, Nat.not_lt] at hnone
    omega

/-- A `sendInLoop` on an open connection splits its data into a part the kernel accepts at once and a part
that joins the backlog. Nothing bypasses a backlog that is already being written, and nothing is lost unless
the peer is gone. -/
theorem sendInLoop_spec {c : Conn} (hlive : c.state_ ≠ .kDisconnected) (send : Send) (result : WriteResult) :
    ∃ sent kept, (c.sendInLoop send result).accepted = c.accepted ++ sent ∧
      (c.sendInLoop send result).outputBuffer_.readable = c.outputBuffer_.readable ++ kept ∧
      (c.sendInLoop send result).channel_.isWriting = (c.channel_.isWriting || !kept.isEmpty) ∧
      (c.channel_.isWriting = true → sent = []) ∧ (result.Broken = false → sent ++ kept = send.data) := by
  obtain ⟨d, n, faultError, hdirect, haccepted, hbuffer, hchannel, _, _, hbehind, hwhole⟩ :=
    writeDirectly_spec { c with executed := c.executed ++ [send] } send.data result
  obtain ⟨kept, hreadable, haccepted', _, hwriting, hkept⟩ := bufferRest_spec d send.data n faultError
  have hsend : c.sendInLoop send result = d.bufferRest send.data n (send.data.length - n) faultError := by
    simp only [sendInLoop, hlive, if_false, hdirect]
  refine ⟨send.data.take n, kept, ?_, ?_, ?_, ?_, ?_⟩
  · rw [hsend, haccepted', haccepted]
  · rw [hsend, hreadable, hbuffer]
  · rw [hsend, hwriting, hchannel]
  · intro h
    rw [hbehind h, List.take_zero]
  · intro h
    rw [hkept (hwhole h), List.take_append_drop]

@[simp] theorem sendInLoop_executed (c : Conn) (send : Send) (result : WriteResult) :
    (c.sendInLoop send result).executed = c.executed ++ [send] := (sendInLoop_frame c send result).executed

@[simp] theorem sendInLoop_halfCloses (c : Conn) (send : Send) (result : WriteResult) :
    (c.sendInLoop send result).halfCloses = c.halfCloses := by
  obtain ⟨d, n, faultError, hdirect, _, _, _, _, hhalf, _⟩ :=
    writeDirectly_spec { c with executed := c.executed ++ [send] } send.data result
  obtain ⟨_, _, _, hhalf', _⟩ := bufferRest_spec d send.data n faultError
  simp only [sendInLoop, hdirect]
  split
  · rfl
  · rw [hhalf', hhalf]

theorem outputDrained_spec (c : Conn) :
    c.outputDrained.accepted = c.accepted ∧ c.outputDrained.executed = c.executed ∧
      c.outputDrained.outputBuffer_ = c.outputBuffer_ ∧ c.outputDrained.channel_ = c.disableWrite.channel_ ∧
      c.outputDrained.entry = c.disableWrite.entry ∧
      c.outputDrained.halfCloses =
        if c.state_ = .kDisconnecting then c.halfCloses ++ [⟨c.executed, c.accepted⟩] else c.halfCloses := by
  have hidle : c.disableWrite.channel_.isWriting = false := by
    simp [disableWrite, Channel.isWriting]
  have hstate : c.disableWrite.state_ = c.state_ := rfl
  unfold outputDrained
  dsimp only
  by_cases hdisconnecting : c.state_ = .kDisconnecting
  · have hhalf : c.disableWrite.shutdownInLoop =
        { c.disableWrite with halfCloses := c.disableWrite.halfCloses ++ [⟨c.executed, c.accepted⟩] } := by
      rw [shutdownInLoop, if_pos ⟨by rw [hstate, hdisconnecting]; decide, hidle⟩]
      rfl
    rw [if_pos (hstate.trans hdisconnecting), if_pos hdisconnecting, hhalf]
    split <;> exact ⟨rfl, rfl, rfl, rfl, rfl, rfl⟩
  · rw [if_neg (fun h => hdisconnecting (hstate.symm.trans h)), if_neg hdisconnecting]
    split <;> exact ⟨rfl, rfl, rfl, rfl, rfl, rfl⟩

/-- Whether a write of the whole output buffer leaves nothing of it. -/
def drains (c : Conn) : WriteResult → Bool
  | .failed _ => false
  | .accepted n => decide (c.outputBuffer_.readableBytes ≤ n)

/-- A `handleWrite` on an open connection moves a prefix of the backlog to the kernel. It half-closes exactly
when it empties the backlog of a disconnecting connection, and it keeps write interest and backlog in
step. -/
theorem handleWrite_spec {c : Conn} (hlive : c.state_ ≠ .kDisconnected) (result : WriteResult) :
    ∃ gone, (c.handleWrite result).accepted = c.accepted ++ gone ∧
      gone ++ (c.handleWrite result).outputBuffer_.readable = c.outputBuffer_.readable ∧
      (c.handleWrite result).executed = c.executed ∧
      ((c.channel_.isWriting = true ↔ c.outputBuffer_.readable ≠ []) →
        ((c.handleWrite result).channel_.isWriting = true ↔
          (c.handleWrite result).outputBuffer_.readable ≠ [])) ∧
      (c.drains result = true → (c.handleWrite result).outputBuffer_.readable = []) ∧
      (c.handleWrite result).halfCloses =
        if c.state_ = .kDisconnecting ∧ c.drains result = true then
          c.halfCloses ++ [⟨c.executed, (c.handleWrite result).accepted⟩]
        else c.halfCloses := by
  unfold handleWrite
  rw [if_neg hlive]
  cases result with
  | failed errno =>
    refine ⟨[], by simp [checkOutput, check], rfl, rfl, fun h => h, fun h => Bool.noConfusion h, ?_⟩
    rw [if_neg (by simp [drains])]
    rfl
  | accepted n =>
    dsimp only
    generalize hchecked : c.checkOutput = d
    have hsame : d.accepted = c.accepted ∧ d.executed = c.executed ∧ d.outputBuffer_ = c.outputBuffer_ ∧
        d.channel_ = c.channel_ ∧ d.state_ = c.state_ ∧ d.halfCloses = c.halfCloses := by
      subst hchecked
      exact ⟨rfl, rfl, rfl, rfl, rfl, rfl⟩
    obtain ⟨haccepted, hexecuted, hbuffer, hchannel, hstate, hhalf⟩ := hsame
    have hstate' : (d.retrieveAccepted n).state_ = c.state_ := hstate
    have hmoved : (d.retrieveAccepted n).accepted = c.accepted ++ c.outputBuffer_.readable.take n := by
      simp only [retrieveAccepted, haccepted, hbuffer]
    have hleft : (d.retrieveAccepted n).outputBuffer_.readable = c.outputBuffer_.readable.drop n := by
      simp only [retrieveAccepted, hbuffer, ValidBuffer.readable_retrieve]
    have hdrains : c.drains (.accepted n) = true ↔ c.outputBuffer_.readable.drop n = [] := by
      simp [drains, ValidBuffer.readableBytes_eq]
    refine ⟨c.outputBuffer_.readable.take n, ?_⟩
    split
    · rename_i hempty
      rw [ValidBuffer.readableBytes_eq, hleft, List.length_eq_zero_iff] at hempty
      obtain ⟨haccepted', hexecuted', hbuffer', hchannel', _, hhalf'⟩ := outputDrained_spec (d.retrieveAccepted n)
      rw [haccepted', hexecuted', hbuffer', hchannel', hhalf', hmoved, hleft]
      refine ⟨rfl, List.take_append_drop _ _, hexecuted, ?_, fun _ => hempty, ?_⟩
      · intro _
        simp [disableWrite, Channel.isWriting, hempty]
      · simp only [hstate', hdrains.mpr hempty, and_true]
        simp only [retrieveAccepted, hhalf, hexecuted]
    · rename_i hmore
      rw [ValidBuffer.readableBytes_eq, hleft, List.length_eq_zero_iff] at hmore
      rw [hmoved, hleft]
      have hnot : ¬c.drains (.accepted n) = true := fun h => hmore (hdrains.mp h)
      refine ⟨rfl, List.take_append_drop _ _, hexecuted, ?_, fun h => (hnot h).elim, ?_⟩
      · intro hmirror
        have hbacklog : c.outputBuffer_.readable ≠ [] := by
          intro h
          simp [h] at hmore
        have hwriting : d.channel_.isWriting = true := by
          rw [hchannel]
          exact hmirror.mpr hbacklog
        exact ⟨fun _ => hmore, fun _ => hwriting⟩
      · rw [if_neg (fun h => hnot h.2)]
        exact hhalf

@[simp] theorem handleClose_state_ (c : Conn) : c.handleClose.state_ = .kDisconnected := rfl

@[simp] theorem handleClose_closes (c : Conn) : c.handleClose.closes = c.closes + 1 := rfl

@[simp] theorem handleClose_events_ (c : Conn) : c.handleClose.channel_.events_ = 0 := interest_events_ _ _

end Conn

end mudong.ev
