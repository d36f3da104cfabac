import Mudong.TcpConnection.Stream

namespace mudong.ev

def WriteResult.succeeded : WriteResult → Bool
  | .failed _ => false
  | .accepted _ => true

namespace Conn

/-- What waits in the output buffer. -/
def backlog (c : Conn) : Nat := c.outputBuffer_.readableBytes

/-- The notices due for a change of the backlog: that everything is written, after a successful write that leaves no
backlog, and that the mark is reached from below. -/
def notices (c : Conn) (wrote : Bool) (backlog' : Nat) : List Task :=
  (if c.writeCompleteCallback_ = true ∧ wrote = true ∧ backlog' = 0 then [.writeComplete] else []) ++
    if c.highWaterMarkCallback_ = true ∧ c.backlog < c.highWaterMark_ ∧ c.highWaterMark_ ≤ backlog' then
      [.highWaterMark backlog']
    else []

/-- The operation queues the notices due for its change of the backlog, and no others. -/
def Notifies (wrote : Bool) (c c' : Conn) : Prop :=
  ∃ tasks, c'.pendingTasks_ = c.pendingTasks_ ++ tasks ∧ tasks.filter Task.isNotice = c.notices wrote c'.backlog

theorem notices_filter (c : Conn) (wrote : Bool) (backlog' : Nat) :
    (c.notices wrote backlog').filter Task.isNotice = c.notices wrote backlog' := by
  unfold notices
  rw [List.filter_append]
  congr 1
  · split <;> rfl
  · split <;> rfl

/-- Without a write and with the same backlog no notice is due. -/
theorem notices_same (c : Conn) : c.notices false c.backlog = [] := by
  have hnot : ¬(c.backlog < c.highWaterMark_ ∧ c.highWaterMark_ ≤ c.backlog) := by omega
  simp [notices, hnot]

theorem Notifies.of_same {c c' : Conn}
    (h : (c'.pendingTasks_, c'.outputBuffer_) = (c.pendingTasks_, c.outputBuffer_)) : Notifies false c c' := by
  obtain ⟨hpending, hbuffer⟩ := Prod.mk.inj h
  have hbacklog : c'.backlog = c.backlog := congrArg ValidBuffer.readableBytes hbuffer
  exact ⟨[], by rw [hpending, List.append_nil], by rw [hbacklog, notices_same]; rfl⟩

/-- A task that is no notice may be queued at any time. -/
theorem Notifies.of_push {c c' : Conn} {task : Task} (htask : task.isNotice = false)
    (hpending : c'.pendingTasks_ = c.pendingTasks_ ++ [task]) (hbuffer : c'.outputBuffer_ = c.outputBuffer_) :
    Notifies false c c' := by
  have hbacklog : c'.backlog = c.backlog := congrArg ValidBuffer.readableBytes hbuffer
  exact ⟨[task], hpending, by rw [hbacklog, notices_same, List.filter_cons_of_neg (by simp [htask]), List.filter_nil]⟩

/-- The direct write queues the write-complete task when it leaves nothing. -/
theorem writeDirectly_pending (c : Conn) (data : List UInt8) (result : WriteResult) :
    ∃ d n faultError, c.writeDirectly data result = (d, n, data.length - n, faultError) ∧
      d.outputBuffer_ = c.outputBuffer_ ∧
      (d.highWaterMarkCallback_, d.highWaterMark_) = (c.highWaterMarkCallback_, c.highWaterMark_) ∧
      d.pendingTasks_ = c.pendingTasks_ ++
        (if c.writeCompleteCallback_ = true ∧ (!c.channel_.isWriting && result.succeeded) = true ∧ data.length ≤ n then
          [.writeComplete]
        else []) ∧
      ((!c.channel_.isWriting && result.succeeded) = true → faultError = false) := by
  unfold writeDirectly
  split
  · rename_i hwriting
    exact ⟨c, 0, false, by simp [hwriting]⟩
  · rename_i hidle
    cases result with
    | failed errno =>
      exact ⟨_, 0, _, rfl, rfl, rfl, by simp [check, WriteResult.succeeded], by simp [WriteResult.succeeded]⟩
    | accepted n =>
      have hzero : data.length - n = 0 ↔ data.length ≤ n := Nat.sub_eq_zero_iff_le
      dsimp only
      split
      · rename_i hall
        refine ⟨_, n, false, rfl, rfl, rfl, ?_, fun _ => rfl⟩
        rw [if_pos ⟨hall.2, by simp [hidle, WriteResult.succeeded], hzero.mp hall.1⟩]
        exact EventLoop.queueInLoop_pendingTasks_ ..
      · rename_i hnot
        refine ⟨_, n, false, rfl, rfl, rfl, ?_, fun _ => rfl⟩
        rw [if_neg fun h => hnot ⟨hzero.mpr h.2.2, h.1⟩, List.append_nil]
        rfl

/-- The rest joins the backlog. -/
theorem bufferRest_backlog (c : Conn) (data : List UInt8) (n : Nat) (faultError : Bool) :
    (c.bufferRest data n (data.length - n) faultError).backlog =
      c.backlog + if faultError then 0 else data.length - n := by
  unfold bufferRest backlog
  split
  · rename_i hrest
    have hlen : (data.drop n).length = data.length - n := List.length_drop
    dsimp only [enableWrite, interest, check]
    rw [ValidBuffer.readableBytes_eq, ValidBuffer.readable_append, List.length_append,
      List.take_of_length_le hlen.le, hlen, ValidBuffer.readableBytes_eq, hrest.1]
    simp only [Bool.false_eq_true, if_false, Nat.add_right_cancel_iff]
    split <;> rfl
  · rename_i hnone
    cases faultError with
    | true => rfl
    | false =>
      have hzero : data.length - n = 0 := by
        by_contra hne
        exact hnone ⟨rfl, Nat.pos_of_ne_zero hne⟩
      rw [hzero]
      rfl

/-- A high-water task announces that the backlog has reached the mark. -/
theorem bufferRest_pending (c : Conn) (data : List UInt8) (n : Nat) (faultError : Bool) :
    (c.bufferRest data n (data.length - n) faultError).pendingTasks_ = c.pendingTasks_ ++
      (if c.highWaterMarkCallback_ = true ∧ c.backlog < c.highWaterMark_ ∧
          c.highWaterMark_ ≤ (c.bufferRest data n (data.length - n) faultError).backlog then
        [.highWaterMark (c.bufferRest data n (data.length - n) faultError).backlog]
      else []) := by
  rw [bufferRest_backlog]
  unfold bufferRest
  split
  · rename_i hrest
    simp only [enableWrite, interest, check, backlog, hrest.1, Bool.false_eq_true, if_false]
    by_cases hcrosses : c.highWaterMarkCallback_ = true ∧ c.outputBuffer_.readableBytes < c.highWaterMark_ ∧
        c.highWaterMark_ ≤ c.outputBuffer_.readableBytes + (data.length - n)
    · rw [if_pos hcrosses, if_pos hcrosses]
      exact EventLoop.queueInLoop_pendingTasks_ ..
    · rw [if_neg hcrosses, if_neg hcrosses, List.append_nil]
  · rename_i hnone
    have hzero : (if faultError then 0 else data.length - n) = 0 := by
      cases faultError with
      | true => rfl
      | false =>
        by_contra hne
        exact hnone ⟨rfl, Nat.pos_of_ne_zero hne⟩
    have hnot : ¬(c.backlog < c.highWaterMark_ ∧ c.highWaterMark_ ≤ c.backlog) := by omega
    rw [hzero, Nat.add_zero, if_neg fun h => hnot h.2, List.append_nil]

theorem Open.backlog_of_idle {c : Conn} (hopen : c.Open) (hidle : c.channel_.isWriting = false) : c.backlog = 0 := by
  rw [backlog, ValidBuffer.readableBytes_eq, List.length_eq_zero_iff]
  by_contra hne
  simp [hopen.mirror.mpr hne] at hidle

/-- A `sendInLoop` writes when nothing waits in front of it. -/
theorem sendInLoop_notifies {c : Conn} (hopen : c.Open) (send : Send) (result : WriteResult) :
    Notifies (!c.channel_.isWriting && result.succeeded) c (c.sendInLoop send result) := by
  obtain ⟨d, n, faultError, hdirect, hbuffer, hmark, hpending, hfault⟩ :=
    writeDirectly_pending { c with executed := c.executed ++ [send] } send.data result
  obtain ⟨hcallback, hmark⟩ := Prod.mk.inj hmark
  have hsend : c.sendInLoop send result = d.bufferRest send.data n (send.data.length - n) faultError := by
    simp only [sendInLoop, hopen.not_disconnected, if_false, hdirect]
  have hbacklog : d.backlog = c.backlog := congrArg ValidBuffer.readableBytes hbuffer
  have hdone (hwrote : (!c.channel_.isWriting && result.succeeded) = true) :
      send.data.length ≤ n ↔ (d.bufferRest send.data n (send.data.length - n) faultError).backlog = 0 := by
    have hidle : c.channel_.isWriting = false := by simpa using (Bool.and_eq_true_iff.mp hwrote).1
    rw [bufferRest_backlog, hbacklog, hopen.backlog_of_idle hidle, hfault hwrote, if_neg (by simp)]
    omega
  rw [hsend]
  refine ⟨c.notices (!c.channel_.isWriting && result.succeeded) _, ?_, notices_filter ..⟩
  rw [bufferRest_pending, hpending, List.append_assoc, notices, hbacklog, hcallback, hmark]
  congr 2
  refine if_congr (and_congr_right fun _ => and_congr_right hdone) rfl rfl

theorem outputDrained_pending (c : Conn) :
    c.outputDrained.pendingTasks_ = c.pendingTasks_ ++ if c.writeCompleteCallback_ then [.writeComplete] else [] := by
  have hqueue (d : Conn)
      (hsame : (d.pendingTasks_, d.writeCompleteCallback_) = (c.pendingTasks_, c.writeCompleteCallback_)) :
      (if d.writeCompleteCallback_ then d.queueInLoop .writeComplete else d).pendingTasks_ =
        c.pendingTasks_ ++ if c.writeCompleteCallback_ then [.writeComplete] else [] := by
    obtain ⟨hpending, hcallback⟩ := Prod.mk.inj hsame
    rw [hcallback, ← hpending]
    split
    · exact EventLoop.queueInLoop_pendingTasks_ ..
    · exact (List.append_nil _).symm
  refine hqueue (if c.disableWrite.state_ = .kDisconnecting then c.disableWrite.shutdownInLoop else c.disableWrite) ?_
  split
  · unfold shutdownInLoop
    split <;> rfl
  · rfl

/-- A `handleWrite` on an open connection writes. -/
theorem handleWrite_notifies {c : Conn} (hlive : c.state_ ≠ .kDisconnected) (result : WriteResult) :
    Notifies result.succeeded c (c.handleWrite result) := by
  unfold handleWrite
  rw [if_neg hlive]
  cases result with
  | failed errno => exact .of_same rfl
  | accepted n =>
    dsimp only
    have hmoved : ((c.checkOutput.retrieveAccepted n).pendingTasks_,
        (c.checkOutput.retrieveAccepted n).writeCompleteCallback_) = (c.pendingTasks_, c.writeCompleteCallback_) := rfl
    obtain ⟨hpending, hcallback⟩ := Prod.mk.inj hmoved
    have hle : (c.checkOutput.retrieveAccepted n).backlog ≤ c.backlog := by
      simp only [backlog, retrieveAccepted, checkOutput, check, ValidBuffer.readableBytes_eq,
        ValidBuffer.readable_retrieve, List.length_drop]
      omega
    have hnotices (wrote : Bool) {backlog' : Nat} (hle : backlog' ≤ c.backlog) : c.notices wrote backlog' =
        if c.writeCompleteCallback_ = true ∧ wrote = true ∧ backlog' = 0 then [.writeComplete] else [] := by
      rw [notices, if_neg (c := c.highWaterMarkCallback_ = true ∧ _) (by omega), List.append_nil]
    generalize c.checkOutput.retrieveAccepted n = d at *
    split
    · rename_i hempty
      have hbacklog : d.outputDrained.backlog = d.backlog :=
        congrArg ValidBuffer.readableBytes (outputDrained_spec d).2.2.1
      have hzero : d.backlog = 0 := hempty
      refine ⟨c.notices true d.outputDrained.backlog, ?_, notices_filter ..⟩
      rw [hnotices true (by omega), outputDrained_pending, hpending, hcallback, hbacklog, hzero]
      simp
    · rename_i hmore
      refine ⟨c.notices true d.backlog, ?_, notices_filter ..⟩
      rw [hnotices true hle, if_neg fun h => hmore h.2.2, List.append_nil, hpending]

/-- Only a `handleWrite` that writes shortens the backlog. -/
theorem handleWrite_backlog_lt {c : Conn} {result : WriteResult} (hlt : (c.handleWrite result).backlog < c.backlog) :
    result.succeeded = true ∧ c.state_ ≠ .kDisconnected := by
  unfold handleWrite at hlt
  split at hlt
  · exact (Nat.lt_irrefl _ hlt).elim
  · rename_i hlive
    cases result with
    | failed errno => exact (Nat.lt_irrefl _ hlt).elim
    | accepted n => exact ⟨rfl, hlive⟩

theorem handleWrite_backlog_le (c : Conn) (result : WriteResult) : (c.handleWrite result).backlog ≤ c.backlog := by
  by_cases hlive : c.state_ = .kDisconnected
  · rw [handleWrite, if_pos hlive]
  · obtain ⟨gone, _, hreadable, _⟩ := handleWrite_spec hlive result
    rw [backlog, backlog, ValidBuffer.readableBytes_eq, ValidBuffer.readableBytes_eq, ← hreadable, List.length_append]
    omega

theorem sendInLoop_backlog_le (c : Conn) (send : Send) (result : WriteResult) :
    c.backlog ≤ (c.sendInLoop send result).backlog := by
  by_cases hlive : c.state_ = .kDisconnected
  · simp only [sendInLoop, hlive, if_true]
    exact Nat.le_refl _
  · obtain ⟨sent, kept, _, hreadable, _⟩ := sendInLoop_spec hlive send result
    rw [backlog, backlog, ValidBuffer.readableBytes_eq, ValidBuffer.readableBytes_eq, hreadable, List.length_append]
    omega

theorem handleRead_same (c : Conn) (result : Buffer.ReadvResult) :
    ((c.handleRead result).pendingTasks_, (c.handleRead result).outputBuffer_) =
      (c.pendingTasks_, c.outputBuffer_) := by
  unfold handleRead
  dsimp only
  split
  · rfl
  · split <;> rfl

theorem forceCloseInLoop_same (c : Conn) :
    (c.forceCloseInLoop.pendingTasks_, c.forceCloseInLoop.outputBuffer_) = (c.pendingTasks_, c.outputBuffer_) := by
  unfold forceCloseInLoop
  split <;> rfl

theorem stopReadInLoop_same (c : Conn) :
    (c.stopReadInLoop.pendingTasks_, c.stopReadInLoop.outputBuffer_) = (c.pendingTasks_, c.outputBuffer_) := by
  unfold stopReadInLoop
  split <;> rfl

theorem startReadInLoop_same (c : Conn) :
    (c.startReadInLoop.pendingTasks_, c.startReadInLoop.outputBuffer_) = (c.pendingTasks_, c.outputBuffer_) := by
  unfold startReadInLoop
  split <;> rfl

/-- What the output of a connection does in a step that calls `sendInLoop` or `handleWrite` or neither: the notices
it queues, and which way the backlog can go. -/
structure Reports (sends drains wrote : Bool) (c c' : Conn) : Prop where
  notifies : Notifies wrote c c'
  rises : c.backlog < c'.backlog → sends = true
  falls : c'.backlog < c.backlog → drains = true ∧ wrote = true

theorem Notifies.quiet {c c' : Conn} (h : Notifies false c c') (hbuffer : c'.outputBuffer_ = c.outputBuffer_)
    {sends drains : Bool} : Reports sends drains false c c' := by
  have hbacklog : c'.backlog = c.backlog := congrArg ValidBuffer.readableBytes hbuffer
  exact ⟨h, fun hlt => by omega, fun hlt => by omega⟩

theorem Reports.of_same {c c' : Conn} (h : (c'.pendingTasks_, c'.outputBuffer_) = (c.pendingTasks_, c.outputBuffer_))
    {sends drains : Bool} : Reports sends drains false c c' := (Notifies.of_same h).quiet (Prod.mk.inj h).2

theorem sendInLoop_reports {c : Conn} (hopen : c.Open) (send : Send) (result : WriteResult) :
    Reports true false (!c.channel_.isWriting && result.succeeded) c (c.sendInLoop send result) := by
  have hle := sendInLoop_backlog_le c send result
  exact ⟨sendInLoop_notifies hopen send result, fun _ => rfl, fun hlt => by omega⟩

theorem handleWrite_reports {c : Conn} (hopen : c.Open) (result : WriteResult) :
    Reports false true result.succeeded c (c.handleWrite result) := by
  have hle := handleWrite_backlog_le c result
  exact ⟨handleWrite_notifies hopen.not_disconnected result, fun hlt => by omega,
    fun hlt => ⟨rfl, (handleWrite_backlog_lt hlt).1⟩⟩

end Conn

/-- The `::write` of the step, if it makes one, succeeds. -/
def Label.succeeded : Label → Bool
  | .dispatch _ write => write.succeeded
  | .task write => write.succeeded
  | .call _ write => write.succeeded
  | _ => false

namespace World

/-- The step runs `sendInLoop`. -/
def sendsInLoop (w : World) : Label → Bool
  | .task _ =>
    match w.tasks with
    | .sendInLoop _ :: _ => true
    | _ => false
  | .call (.send _) _ => w.state_ = .kConnected
  | _ => false

/-- The step runs `handleWrite`. -/
def handlesWrite (w : World) : Label → Bool
  | .dispatch _ _ => w.phase = .handling (some .onWrite) && Mask.has w.channel_.revents_ EPOLLOUT
  | _ => false

/-- The step calls `::write`, successfully: `handleWrite` does so and so does `sendInLoop` without write interest. -/
def wrote (w : World) (l : Label) : Bool :=
  w.state_ ≠ .kDisconnected && (w.sendsInLoop l && !w.channel_.isWriting || w.handlesWrite l) && l.succeeded

/-- The tasks that a step has queued. -/
def newTasks (w w' : World) : List Task := w'.pendingTasks_.drop w.pendingTasks_.length

/-- What a step does to the output of an open connection. -/
structure Reports (w : World) (l : Label) (w' : World) : Prop where
  notices : (w.newTasks w').filter Task.isNotice = w.notices (w.wrote l) w'.backlog
  rises : w.backlog < w'.backlog → w.sendsInLoop l = true
  falls : w'.backlog < w.backlog → w.handlesWrite l = true ∧ w.wrote l = true

theorem Reports.of_conn {w w' : World} {l : Label} {sends drains wrote : Bool}
    (h : Conn.Reports sends drains wrote w.toConn w'.toConn) (hsends : sends = true → w.sendsInLoop l = true)
    (hdrains : drains = true → w.handlesWrite l = true) (hwrote : w.wrote l = wrote) : w.Reports l w' := by
  obtain ⟨tasks, hpending, hnotices⟩ := h.notifies
  refine ⟨?_, fun hlt => hsends (h.rises hlt), fun hlt => ⟨hdrains (h.falls hlt).1, hwrote.trans (h.falls hlt).2⟩⟩
  rw [newTasks, hpending, List.drop_left, hnotices, hwrote]

theorem Reports.of_same {w w' : World} {l : Label}
    (h : (w'.pendingTasks_, w'.outputBuffer_) = (w.pendingTasks_, w.outputBuffer_)) (hwrote : w.wrote l = false) :
    w.Reports l w' := by
  have hquiet : Conn.Reports false false false w.toConn w'.toConn := .of_same h
  exact .of_conn hquiet (by simp) (by simp) hwrote

theorem Reports.of_push {w w' : World} {l : Label} {task : Task} (htask : task.isNotice = false)
    (hpending : w'.pendingTasks_ = w.pendingTasks_ ++ [task]) (hbuffer : w'.outputBuffer_ = w.outputBuffer_)
    (hwrote : w.wrote l = false) : w.Reports l w' := by
  have hquiet : Conn.Reports false false false w.toConn w'.toConn :=
    (Conn.Notifies.of_push htask hpending hbuffer).quiet hbuffer
  exact .of_conn hquiet (by simp) (by simp) hwrote

/-- What other threads push is no notice. -/
def Genuine (w : World) : Prop := ∀ thread task, w.calls thread = .push task → task.isNotice = false

theorem Genuine.setCall {w w' : World} {thread : Nat} {call : Call} (h : w.Genuine)
    (hcall : ∀ task, call = .push task → task.isNotice = false)
    (hcalls : w'.calls = Function.update w.calls thread call) : w'.Genuine := by
  intro other task htask
  rw [hcalls, Function.update_apply] at htask
  split at htask
  · exact hcall task htask
  · exact h other task htask

theorem Genuine.step {w w' : World} {l : Label} (h : w.Genuine) (hstep : w.step l = some w') : w'.Genuine := by
  cases step_moves hstep with
  | startSend hidle hstate | startStopRead hidle | startStartRead hidle =>
    refine h.setCall ?_ rfl
    rintro task htask
    cases htask
    rfl
  | startShutdown hidle | startForceClose hidle hstate | push hcall | wakeup hcall =>
    refine h.setCall ?_ rfl
    rintro task htask
    cases htask
  | exchangeShutdown hcall | exchangeForceClose hcall =>
    refine h.setCall ?_ rfl
    intro task htask
    split at htask
    · cases htask
      rfl
    · cases htask
  | _ => exact h

/-- One stage of the dispatch of an open connection. -/
private theorem dispatch_reports {w : World} {read : Buffer.ReadvResult} {write : WriteResult} {stage : Stage}
    (hopen : w.toConn.Open) (hphase : w.phase = .handling (some stage)) :
    w.Reports (.dispatch read write)
      { w with toConn := w.runStage read write stage, phase := .handling stage.next } := by
  have hquiet (hnot : w.handlesWrite (.dispatch read write) = false)
      (hsame : ((w.runStage read write stage).pendingTasks_, (w.runStage read write stage).outputBuffer_) =
        (w.pendingTasks_, w.outputBuffer_)) : w.Reports (.dispatch read write)
          { w with toConn := w.runStage read write stage, phase := .handling stage.next } :=
    .of_same hsame (by simp [wrote, sendsInLoop, hnot])
  cases stage with
  | onClose =>
    refine hquiet (by simp [handlesWrite, hphase]) ?_
    simp only [Conn.runStage]
    split <;> rfl
  | onError =>
    refine hquiet (by simp [handlesWrite, hphase]) ?_
    simp only [Conn.runStage]
    split <;> rfl
  | onRead =>
    refine hquiet (by simp [handlesWrite, hphase]) ?_
    simp only [Conn.runStage]
    split
    · exact Conn.handleRead_same ..
    · rfl
  | onWrite =>
    by_cases hout : Mask.has w.channel_.revents_ EPOLLOUT = true
    · have hhandles : w.handlesWrite (.dispatch read write) = true := by simp [handlesWrite, hphase, hout]
      have hstage : w.runStage read write .onWrite = w.handleWrite write := if_pos hout
      have hreports : Conn.Reports false true write.succeeded w.toConn (w.runStage read write .onWrite) := by
        rw [hstage]
        exact Conn.handleWrite_reports hopen write
      exact .of_conn hreports (by simp) (fun _ => hhandles)
        (by simp [wrote, hhandles, hopen.not_disconnected, sendsInLoop, Label.succeeded])
    · refine hquiet (by simp [handlesWrite, hout]) ?_
      rw [Conn.runStage, if_neg hout]

/-- A task of the queue of an open connection. -/
private theorem task_reports {w : World} {write : WriteResult} {task : Task} {rest : List Task}
    (hopen : w.toConn.Open) (htasks : w.tasks = task :: rest) :
    w.Reports (.task write) { w with toConn := w.runTask write task, tasks := rest } := by
  have hquiet (hnot : w.sendsInLoop (.task write) = false)
      (hsame : ((w.runTask write task).pendingTasks_, (w.runTask write task).outputBuffer_) =
        (w.pendingTasks_, w.outputBuffer_)) :
      w.Reports (.task write) { w with toConn := w.runTask write task, tasks := rest } :=
    .of_same hsame (by simp [wrote, handlesWrite, hnot])
  cases task with
  | sendInLoop send =>
    have hsends : w.sendsInLoop (.task write) = true := by simp [sendsInLoop, htasks]
    exact .of_conn (Conn.sendInLoop_reports hopen send write) (fun _ => hsends) (by simp)
      (by simp [wrote, hsends, handlesWrite, hopen.not_disconnected, Label.succeeded])
  | shutdownInLoop => exact hquiet (by simp [sendsInLoop, htasks]) (Conn.shutdownInLoop_same _)
  | forceCloseInLoop => exact hquiet (by simp [sendsInLoop, htasks]) (Conn.forceCloseInLoop_same _)
  | stopRead => exact hquiet (by simp [sendsInLoop, htasks]) (Conn.stopReadInLoop_same _)
  | startRead => exact hquiet (by simp [sendsInLoop, htasks]) (Conn.startReadInLoop_same _)
  | writeComplete => exact hquiet (by simp [sendsInLoop, htasks]) rfl
  | highWaterMark len => exact hquiet (by simp [sendsInLoop, htasks]) rfl
  | other => exact hquiet (by simp [sendsInLoop, htasks]) rfl

/-- A call in the loop thread on an open connection. -/
private theorem call_reports {w : World} {api : Api} {write : WriteResult} (hopen : w.toConn.Open) :
    w.Reports (.call api write) { w with toConn := w.callInLoop write api } := by
  have hquiet {api : Api} (hnot : w.sendsInLoop (.call api write) = false)
      (hsame : ((w.callInLoop write api).pendingTasks_, (w.callInLoop write api).outputBuffer_) =
        (w.pendingTasks_, w.outputBuffer_)) :
      w.Reports (.call api write) { w with toConn := w.callInLoop write api } :=
    .of_same hsame (by simp [wrote, handlesWrite, hnot])
  cases api with
  | send payload =>
    by_cases hstate : w.state_ = .kConnected
    · have hsends : w.sendsInLoop (.call (.send payload) write) = true := by simp [sendsInLoop, hstate]
      have hreports : Conn.Reports true false (!w.channel_.isWriting && write.succeeded) w.toConn
          (w.callInLoop write (.send payload)) := by
        rw [Conn.callInLoop, Conn.send_eq, Conn.sendChars, if_neg (by simp [hstate])]
        have hobserved : (w.observe ⟨.loop, w.observed.length, payload.data⟩).Open :=
          ⟨hopen.live, hopen.mirror, hopen.armed⟩
        obtain ⟨hnotifies, hrises, hfalls⟩ :=
          Conn.sendInLoop_reports hobserved ⟨.loop, w.observed.length, payload.data⟩ write
        exact ⟨hnotifies, hrises, hfalls⟩
      exact .of_conn hreports (fun _ => hsends) (by simp)
        (by simp [wrote, hsends, handlesWrite, hopen.not_disconnected, Label.succeeded])
    · refine hquiet (by simp [sendsInLoop, hstate]) ?_
      rw [Conn.callInLoop, Conn.send_eq, Conn.sendChars, if_pos hstate]
  | shutdown =>
    refine hquiet rfl ?_
    simp only [Conn.callInLoop, Conn.shutdown]
    split
    · exact Conn.shutdownInLoop_same _
    · rfl
  | forceClose =>
    have hwrote : w.wrote (.call .forceClose write) = false := by simp [wrote, sendsInLoop, handlesWrite]
    have hforce : w.callInLoop write .forceClose =
        Conn.queueInLoop { w.toConn with state_ := .kDisconnecting } .forceCloseInLoop := by
      simp [Conn.callInLoop, Conn.forceClose, Conn.stateAtomicGetAndSet, hopen.not_disconnected]
    rw [hforce]
    exact .of_push rfl (EventLoop.queueInLoop_pendingTasks_ ..) rfl hwrote
  | stopRead => exact hquiet rfl (Conn.stopReadInLoop_same _)
  | startRead => exact hquiet rfl (Conn.startReadInLoop_same _)

/-- Every step of an open connection queues the notices due for its change of the backlog. -/
theorem step_reports {w w' : World} {l : Label} (hopen : w.toConn.Open) (hgenuine : w.Genuine)
    (hstep : w.step l = some w') : w.Reports l w' := by
  cases step_moves hstep with
  | dispatch hphase hfits => exact dispatch_reports hopen hphase
  | task hphase htasks hfits => exact task_reports hopen htasks
  | call hphase hfits => exact call_reports hopen
  | swap hphase =>
    have hwrote : w.wrote .swap = false := by simp [wrote, sendsInLoop, handlesWrite]
    refine ⟨?_, fun hlt => (Nat.lt_irrefl _ hlt).elim, fun hlt => (Nat.lt_irrefl _ hlt).elim⟩
    rw [hwrote, newTasks, List.drop_nil]
    exact (Conn.notices_same _).symm
  | push hcall =>
    exact .of_push (hgenuine _ _ hcall) rfl rfl (by simp [wrote, sendsInLoop, handlesWrite])
  | pushOther => exact .of_push rfl rfl rfl (by simp [wrote, sendsInLoop, handlesWrite])
  | _ => exact .of_same rfl (by simp [wrote, sendsInLoop, handlesWrite])

theorem established_genuine (others wakeups : Nat) : (established others wakeups).Genuine := by
  intro thread task htask
  cases htask

theorem run_genuine {others wakeups : Nat} {labels : List Label} {w : World}
    (hrun : Run.exec step (established others wakeups) labels = some w) : w.Genuine :=
  Run.exec_preserves (fun _ _ _ hinv hstep => hinv.step hstep) (established_genuine others wakeups) hrun

/-- A step of an open connection queues one write-complete task if it has called `::write` successfully and all
that has been passed to `sendInLoop` is accepted after it, and none otherwise. -/
theorem write_complete_when_all_accepted {others wakeups : Nat} {labels : List Label} {w w' : World} {l : Label}
    (hwrites : ∀ l ∈ labels, l.unbroken = true) (hrun : Run.exec step (established others wakeups) labels = some w)
    (hopen : w.closes = 0) (hset : w.writeCompleteCallback_ = true) (hwrite : l.unbroken = true)
    (hstep : w.step l = some w') :
    (w.newTasks w').count .writeComplete =
      if w.wrote l = true ∧ w'.accepted = (w'.executed.map Send.data).flatten then 1 else 0 := by
  obtain ⟨hinv, hwhole⟩ := run_whole hwrites hrun
  have hwhole' : w'.toConn.Whole := step_whole (hinv.opened hopen) hwrite (hwhole hopen) hstep
  have haccepted : w'.backlog = 0 ↔ w'.accepted = (w'.executed.map Send.data).flatten := by
    rw [Conn.backlog, ValidBuffer.readableBytes_eq, List.length_eq_zero_iff, ← hwhole', List.self_eq_append_right]
  have hnotices := (step_reports (hinv.opened hopen) (run_genuine hrun) hstep).notices
  have hcount : (w.newTasks w').count .writeComplete = (w.notices (w.wrote l) w'.backlog).count .writeComplete := by
    rw [← hnotices, List.count_filter rfl]
  rw [hcount, Conn.notices, List.count_append]
  have hmark : (if w.highWaterMarkCallback_ = true ∧ w.backlog < w.highWaterMark_ ∧ w.highWaterMark_ ≤ w'.backlog then
      [Task.highWaterMark w'.backlog] else []).count .writeComplete = 0 := by
    split <;> rfl
  rw [hmark, Nat.add_zero]
  by_cases hall : w.wrote l = true ∧ w'.accepted = (w'.executed.map Send.data).flatten
  · rw [if_pos ⟨hset, hall.1, haccepted.mpr hall.2⟩, if_pos hall]
    rfl
  · rw [if_neg fun h => hall ⟨h.2.1, haccepted.mp h.2.2⟩, if_neg hall]
    rfl

/-- A partial write queues nothing, and the write that drains the backlog queues the task. -/
theorem write_complete_when_all_accepted_drained : ∃ w w' : World,
    Run.exec step (established 0 0)
      [.setWriteCompleteCallback true, .call (.send (.chars [1, 2, 3])) (.accepted 1), .swap, .endTasks,
        .poll (some EPOLLOUT), .dispatch (.failed 0) (.accepted 0), .dispatch (.failed 0) (.accepted 0),
        .dispatch (.failed 0) (.accepted 0)] = some w ∧
    w.pendingTasks_ = [] ∧ w.step (.dispatch (.failed 0) (.accepted 2)) = some w' ∧
    (w.newTasks w').count .writeComplete = 1 := by
  obtain ⟨w, hrun, ⟨hopen, hset, hnone⟩, hwrote, hnext⟩ := Run.Reaches.exists
    (by decide +kernel : Run.Reaches step (established 0 0)
      [.setWriteCompleteCallback true, .call (.send (.chars [1, 2, 3])) (.accepted 1), .swap, .endTasks,
        .poll (some EPOLLOUT), .dispatch (.failed 0) (.accepted 0), .dispatch (.failed 0) (.accepted 0),
        .dispatch (.failed 0) (.accepted 0)]
      (fun w => (w.closes = 0 ∧ w.writeCompleteCallback_ = true ∧ w.pendingTasks_ = []) ∧
        w.wrote (.dispatch (.failed 0) (.accepted 2)) = true ∧
        Run.Reaches step w [.dispatch (.failed 0) (.accepted 2)] fun w' =>
          w'.accepted = (w'.executed.map Send.data).flatten))
  obtain ⟨w', hstep, haccepted⟩ := hnext.exists
  obtain ⟨v, hv, hvw⟩ := Run.exec_cons_eq_some.mp hstep
  cases hvw
  refine ⟨w, w', hrun, hnone, hv, ?_⟩
  rw [write_complete_when_all_accepted (by decide) hrun hopen hset rfl hv, if_pos ⟨hwrote, haccepted⟩]

end World

end mudong.ev
