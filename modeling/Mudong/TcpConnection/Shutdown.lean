import Mudong.TcpConnection.HalfClose

namespace mudong.ev

namespace Conn

/-- What a step of the loop thread does while a half-close is due: nobody makes the connection connected
again or queues a half-close of its own, and a disconnecting connection that loses its backlog is
half-closed. -/
structure Defers (halving : Bool) (c c' : Conn) : Prop where
  state_ : c.state_ ≠ .kConnected → c'.state_ ≠ .kConnected
  queued : .shutdownInLoop ∈ c'.pendingTasks_ → .shutdownInLoop ∈ c.pendingTasks_
  backlog : c.state_ = .kDisconnecting → c.outputBuffer_.readable ≠ [] →
    halving = true ∨ c'.outputBuffer_.readable ≠ []

theorem Defers.of_same {halving : Bool} {c c' : Conn}
    (h : (c'.pendingTasks_, c'.outputBuffer_) = (c.pendingTasks_, c.outputBuffer_))
    (hstate : c.state_ ≠ .kConnected → c'.state_ ≠ .kConnected) : Defers halving c c' := by
  simp only [Prod.mk.injEq] at h
  obtain ⟨hpending, hbuffer⟩ := h
  exact ⟨hstate, fun h => hpending ▸ h, fun _ h => Or.inr (hbuffer ▸ h)⟩

theorem queueInLoop_queued {c : Conn} {task : Task} (htask : task ≠ .shutdownInLoop)
    (h : .shutdownInLoop ∈ (c.queueInLoop task).pendingTasks_) : .shutdownInLoop ∈ c.pendingTasks_ := by
  simpa [queueInLoop, Ne.symm htask] using h

theorem queueInLoop_defers {halving : Bool} (c : Conn) {task : Task} (htask : task ≠ .shutdownInLoop) :
    Defers halving c (c.queueInLoop task) :=
  ⟨id, queueInLoop_queued htask, fun _ => Or.inr⟩

theorem Defers.trans {c d e : Conn} (h : Defers false c d) (h' : Defers false d e)
    (hstate : d.state_ = c.state_) : Defers false c e := by
  refine ⟨h'.state_ ∘ h.state_, h.queued ∘ h'.queued, fun hd hne => ?_⟩
  obtain hhalving | hne := h.backlog hd hne
  · exact Or.inl hhalving
  · exact h'.backlog (hstate.trans hd) hne

theorem shutdownInLoop_defers {halving : Bool} (c : Conn) : Defers halving c c.shutdownInLoop := by
  unfold shutdownInLoop
  split
  · exact .of_same rfl id
  · exact .of_same rfl id

theorem handleClose_defers {halving : Bool} (c : Conn) : Defers halving c c.handleClose :=
  .of_same rfl (fun _ h => by cases h)

theorem stopReadInLoop_defers {halving : Bool} (c : Conn) : Defers halving c c.stopReadInLoop := by
  unfold stopReadInLoop
  split
  · exact .of_same rfl id
  · exact .of_same rfl id

theorem startReadInLoop_defers {halving : Bool} (c : Conn) : Defers halving c c.startReadInLoop := by
  unfold startReadInLoop
  split
  · exact .of_same rfl id
  · exact .of_same rfl id

theorem forceCloseInLoop_defers {halving : Bool} (c : Conn) : Defers halving c c.forceCloseInLoop := by
  unfold forceCloseInLoop
  split
  · exact handleClose_defers c
  · exact .of_same rfl id

theorem handleRead_defers {halving : Bool} (c : Conn) (read : Buffer.ReadvResult) :
    Defers halving c (c.handleRead read) := by
  unfold handleRead
  dsimp only
  split
  · exact .of_same rfl id
  · split
    · exact .of_same rfl (fun _ h => by cases h)
    · exact .of_same rfl id

theorem writeDirectly_defers (c : Conn) (data : List UInt8) (result : WriteResult) :
    Defers false c (c.writeDirectly data result).1 := by
  unfold writeDirectly
  split
  · exact .of_same rfl id
  · cases result with
    | failed errno => exact .of_same rfl id
    | accepted n =>
      dsimp only
      have haccept : Defers false c { c.check .sendInLoop (c.outputBuffer_.readableBytes = 0) with
          accepted := c.accepted ++ data.take n } := .of_same rfl id
      split
      · exact haccept.trans (queueInLoop_defers _ (by simp)) rfl
      · exact haccept

theorem bufferRest_defers (c : Conn) (data : List UInt8) (n remain : Nat) (faultError : Bool) :
    Defers false c (c.bufferRest data n remain faultError) := by
  unfold bufferRest
  split
  · have happend (d : Conn) (hstate : d.state_ = c.state_) (hpending : Defers false c d) :
        Defers false c (enableWrite { d with
          outputBuffer_ := d.outputBuffer_.append ((data.drop n).take remain) }) := by
      refine hpending.trans ⟨id, id, fun _ hne => Or.inr ?_⟩ hstate
      simp [enableWrite, interest, check, hne]
    refine happend _ ?_ ?_
    · split <;> rfl
    · split
      · exact queueInLoop_defers c (by simp)
      · exact .of_same rfl id
  · exact .of_same rfl id

theorem sendInLoop_defers (c : Conn) (send : Send) (result : WriteResult) :
    Defers false c (c.sendInLoop send result) := by
  have hrecord : Defers false c { c with executed := c.executed ++ [send] } := .of_same rfl id
  refine hrecord.trans ?_ rfl
  unfold sendInLoop
  dsimp only
  split
  · exact .of_same rfl id
  · exact (writeDirectly_defers _ _ _).trans (bufferRest_defers _ _ _ _ _) (outputFrame_rule.writeDirectly _ _ _).state_

theorem queued_rule :
    OutputRule fun c c' => Task.shutdownInLoop ∈ c'.pendingTasks_ → Task.shutdownInLoop ∈ c.pendingTasks_ where
  refl _ h := h
  trans h h' := h ∘ h'
  record _ _ _ _ _ h := h
  enableWrite _ h := h
  disableWrite _ h := h
  notice _ task htask h := queueInLoop_queued (by rintro rfl; cases htask) h

theorem handleWrite_defers (c : Conn) (write : WriteResult) :
    Defers (c.state_ == .kDisconnecting && c.drains write) c (c.handleWrite write) := by
  have hstate := (handleWrite_frame c write).state_
  refine ⟨fun h => hstate ▸ h, queued_rule.handleWrite c write, fun hd hne => ?_⟩
  cases hdrains : c.drains write with
  | true => exact Or.inl (by simp [hd])
  | false =>
    refine Or.inr ?_
    unfold handleWrite
    rw [if_neg (by simp [hd])]
    cases write with
    | failed errno => exact hne
    | accepted n =>
      have hleft : (c.checkOutput.retrieveAccepted n).outputBuffer_.readable ≠ [] := by
        simpa [drains, ValidBuffer.readableBytes_eq, retrieveAccepted, checkOutput, check] using hdrains
      dsimp only
      rw [if_neg (by simpa [ValidBuffer.readableBytes_eq] using hleft)]
      exact hleft

theorem runStage_defers (c : Conn) (read : Buffer.ReadvResult) (write : WriteResult) (stage : Stage) :
    Defers (c.stageHalves write stage) c (c.runStage read write stage) := by
  cases stage with
  | onClose =>
    simp only [runStage]
    split
    · exact handleClose_defers c
    · exact .of_same rfl id
  | onError =>
    simp only [runStage]
    split
    · exact .of_same rfl id
    · exact .of_same rfl id
  | onRead =>
    simp only [runStage]
    split
    · exact handleRead_defers c read
    · exact .of_same rfl id
  | onWrite =>
    simp only [runStage]
    split
    · rename_i hout
      rw [stageHalves, hout, Bool.true_and]
      exact handleWrite_defers c write
    · exact .of_same rfl id

theorem runTask_defers (c : Conn) (write : WriteResult) (task : Task) :
    Defers (c.taskHalves task) c (c.runTask write task) := by
  cases task with
  | sendInLoop send => exact sendInLoop_defers c send write
  | shutdownInLoop => exact shutdownInLoop_defers c
  | forceCloseInLoop => exact forceCloseInLoop_defers c
  | stopRead => exact stopReadInLoop_defers c
  | startRead => exact startReadInLoop_defers c
  | writeComplete => exact .of_same rfl id
  | highWaterMark len => exact .of_same rfl id
  | other => exact .of_same rfl id

theorem shutdown_same (c : Conn) :
    (c.shutdown.pendingTasks_, c.shutdown.outputBuffer_) = (c.pendingTasks_, c.outputBuffer_) := by
  unfold shutdown
  dsimp only
  split
  · exact shutdownInLoop_same _
  · rfl

theorem callInLoop_defers (c : Conn) (write : WriteResult) (api : Api) :
    Defers (c.callHalves api) c (c.callInLoop write api) := by
  cases api with
  | send payload =>
    rw [callInLoop, send_eq]
    unfold sendChars
    split
    · exact .of_same rfl id
    · have hsent := sendInLoop_defers (c.observe ⟨.loop, c.observed.length, payload.data⟩)
        ⟨.loop, c.observed.length, payload.data⟩ write
      exact ⟨hsent.state_, hsent.queued, hsent.backlog⟩
  | shutdown =>
    have hstate : c.shutdown.state_ ≠ .kConnected := by
      rw [shutdown_state_]
      simp
    exact .of_same (shutdown_same c) (fun _ => hstate)
  | forceClose =>
    simp only [callInLoop, forceClose]
    split
    · have hexchange : Defers (c.callHalves .forceClose) c (c.stateAtomicGetAndSet .kDisconnecting).2 :=
        .of_same rfl (fun _ h => by cases h)
      split
      · obtain ⟨hstate, hqueued, hbacklog⟩ := hexchange
        exact ⟨hstate, fun h => hqueued (queueInLoop_queued (by simp) h), hbacklog⟩
      · exact hexchange
    · exact .of_same rfl id
  | stopRead => exact stopReadInLoop_defers c
  | startRead => exact startReadInLoop_defers c

end Conn

namespace World

/-- A `shutdownInLoop` is on its way: about to be pushed, in the queue or in the batch being run. -/
def ShutdownDue (w : World) : Prop :=
  .shutdownInLoop ∈ w.pendingTasks_ ∨ .shutdownInLoop ∈ w.tasks ∨ ∃ thread, w.calls thread = .push .shutdownInLoop

/-- Whether a step executes the `shutdownInLoop` of a `shutdown()` whose exchange has returned `kConnected`. In
the loop thread the two are one step. -/
def executesShutdown (w : World) : Label → Bool
  | .task _ =>
    match w.phase, w.tasks with
    | .running, .shutdownInLoop :: _ => true
    | _, _ => false
  | .call .shutdown _ => w.state_ == .kConnected
  | _ => false

/-- A `shutdownInLoop` is only ever on its way on a connection that has left `kConnected`. -/
structure ShutdownInv (w : World) : Prop where
  inv : w.Inv
  departed : w.ShutdownDue → w.state_ ≠ .kConnected

/-- The half-close that a `shutdownInLoop` was executed for has been issued, or it waits for the backlog. -/
def Settled (w : World) : Prop :=
  w.closes = 0 → w.state_ ≠ .kConnected ∧ (w.halfCloses = [] → w.outputBuffer_.readable ≠ [])

theorem ShutdownDue.of_setCall {w : World} {thread : Nat} {call : Call} (h : (w.setCall thread call).ShutdownDue)
    (hcall : call ≠ .push .shutdownInLoop) : w.ShutdownDue := by
  obtain h | h | ⟨other, h⟩ := h
  · exact Or.inl h
  · exact Or.inr (Or.inl h)
  · by_cases heq : other = thread
    · simp only [setCall, heq, Function.update_self] at h
      exact (hcall h).elim
    · simp only [setCall, Function.update_of_ne heq] at h
      exact Or.inr (Or.inr ⟨other, h⟩)

theorem step_departs {w w' : World} {l : Label} (hstep : w.step l = some w') :
    (w.state_ ≠ .kConnected → w'.state_ ≠ .kConnected) ∧
      (w.state_ = .kDisconnecting → w.outputBuffer_.readable ≠ [] →
        w.halving l = true ∨ w'.outputBuffer_.readable ≠ []) := by
  cases step_moves hstep with
  | dispatch hphase hfits =>
    rename_i read write stage
    have hdefers := Conn.runStage_defers w.toConn read write stage
    simp only [halving, hphase]
    exact ⟨hdefers.state_, hdefers.backlog⟩
  | task hphase htasks hfits =>
    rename_i write task rest
    have hdefers := Conn.runTask_defers w.toConn write task
    simp only [halving, hphase, htasks]
    exact ⟨hdefers.state_, hdefers.backlog⟩
  | call hphase hfits =>
    rename_i api write
    have hdefers := Conn.callInLoop_defers w.toConn write api
    exact ⟨hdefers.state_, hdefers.backlog⟩
  | exchangeShutdown hcall => exact ⟨fun _ h => (by cases h), fun _ => Or.inr⟩
  | exchangeForceClose hcall => exact ⟨fun _ h => (by cases h), fun _ => Or.inr⟩
  | _ => exact ⟨id, fun _ => Or.inr⟩

theorem ShutdownInv.step {w w' : World} {l : Label} (hinv : w.ShutdownInv) (hstep : w.step l = some w') :
    w'.ShutdownInv := by
  refine ⟨hinv.inv.step hstep, fun hdue => ?_⟩
  have hdeparts := (step_departs hstep).1
  have hkeep (h : w.ShutdownDue) : w'.state_ ≠ .kConnected := hdeparts (hinv.departed h)
  cases step_moves hstep with
  | dispatch hphase hfits =>
    refine hkeep (hdue.imp_left (Conn.runStage_defers w.toConn _ _ _).queued)
  | swap hphase =>
    obtain h | h | h := hdue
    · cases h
    · exact hkeep (Or.inl h)
    · exact hkeep (Or.inr (Or.inr h))
  | task hphase htasks hfits =>
    obtain h | h | h := hdue
    · exact hkeep (Or.inl ((Conn.runTask_defers w.toConn _ _).queued h))
    · exact hkeep (Or.inr (Or.inl (by rw [htasks]; exact List.mem_cons_of_mem _ h)))
    · exact hkeep (Or.inr (Or.inr h))
  | call hphase hfits => exact hkeep (hdue.imp_left (Conn.callInLoop_defers w.toConn _ _).queued)
  | startSend hidle hstate => exact hkeep (hdue.of_setCall (by simp))
  | startShutdown hidle => exact hkeep (hdue.of_setCall (by simp))
  | startForceClose hidle hstate => exact hkeep (hdue.of_setCall (by simp))
  | startStopRead hidle => exact hkeep (hdue.of_setCall (by simp))
  | startStartRead hidle => exact hkeep (hdue.of_setCall (by simp))
  | exchangeShutdown hcall => exact fun h => by cases h
  | exchangeForceClose hcall => exact fun h => by cases h
  | push hcall =>
    rename_i thread task
    obtain h | h | h := hdue.of_setCall (by simp)
    · simp only [EventLoop.push, List.mem_append, List.mem_singleton] at h
      obtain h | rfl := h
      · exact hkeep (Or.inl h)
      · exact hkeep (Or.inr (Or.inr ⟨thread, hcall⟩))
    · exact hkeep (Or.inr (Or.inl h))
    · exact hkeep (Or.inr (Or.inr h))
  | wakeup hcall => exact hkeep (hdue.of_setCall (by simp))
  | pushOther =>
    refine hkeep (hdue.imp_left fun h => ?_)
    simpa [EventLoop.push] using h
  | _ => exact hkeep hdue

theorem Settled.step {w w' : World} {l : Label} (h : w.Settled) (hinv : w.Inv) (hstep : w.step l = some w') :
    w'.Settled := by
  intro hopen'
  have hopen : w.closes = 0 := Nat.le_zero.mp (hopen' ▸ step_closes_le hstep)
  obtain ⟨hstate, hbacklog⟩ := h hopen
  obtain ⟨hdeparts, hkeeps⟩ := step_departs hstep
  refine ⟨hdeparts hstate, fun hnone => ?_⟩
  have hhalf := (step_halves hstep).halfCloses
  have hdisconnecting : w.state_ = .kDisconnecting := (hinv.opened hopen).live.resolve_left hstate
  cases hhalving : w.halving l with
  | true =>
    rw [hhalving, if_pos rfl, hnone] at hhalf
    simp at hhalf
  | false =>
    rw [hhalving, hnone] at hhalf
    have hkept := hkeeps hdisconnecting (hbacklog hhalf.symm)
    simpa [hhalving] using hkept

/-- An executed `shutdownInLoop` half-closes exactly if there is no write interest, and takes no bytes. -/
theorem step_of_executes {w w' : World} {l : Label} (hopen : w.toConn.Open) (hstep : w.step l = some w')
    (hexecutes : w.executesShutdown l = true) :
    w.halving l = !w.channel_.isWriting ∧ w'.outputBuffer_ = w.outputBuffer_ ∧
      (w.ShutdownDue ∨ w'.state_ = .kDisconnecting) := by
  cases step_moves hstep with
  | task hphase htasks hfits =>
    rename_i write task rest
    simp only [executesShutdown, hphase, htasks] at hexecutes
    split at hexecutes
    · rename_i heq
      cases heq
      have hlive := hopen.not_disconnected
      refine ⟨?_, congrArg Prod.snd (Conn.shutdownInLoop_same w.toConn), Or.inl (Or.inr (Or.inl (by simp [htasks])))⟩
      simp [halving, hphase, htasks, Conn.taskHalves, Conn.shutsDown, hlive]
    · cases hexecutes
  | call hphase hfits =>
    rename_i api write
    cases api with
    | shutdown =>
      refine ⟨?_, congrArg Prod.snd (Conn.shutdown_same w.toConn), Or.inr (Conn.shutdown_state_ w.toConn)⟩
      have hconnected : w.state_ = .kConnected := by simpa [executesShutdown] using hexecutes
      simp [halving, Conn.callHalves, hconnected]
    | _ => simp [executesShutdown] at hexecutes
  | _ => simp [executesShutdown] at hexecutes

theorem ShutdownInv.settled {w w' : World} {l : Label} (hinv : w.ShutdownInv) (hstep : w.step l = some w')
    (hexecutes : w.executesShutdown l = true) : w'.Settled := by
  intro hopen'
  have hopen := hinv.inv.opened (Nat.le_zero.mp (hopen' ▸ step_closes_le hstep))
  obtain ⟨hhalving, hbuffer, hstate⟩ := step_of_executes hopen hstep hexecutes
  refine ⟨?_, fun hnone => ?_⟩
  · obtain hdue | hstate := hstate
    · exact (step_departs hstep).1 (hinv.departed hdue)
    · simp [hstate]
  · have hhalf := (step_halves hstep).halfCloses
    rw [hhalving, hnone] at hhalf
    have hwriting : w.channel_.isWriting = true := by
      cases hw : w.channel_.isWriting with
      | true => rfl
      | false => simp [hw] at hhalf
    rw [hbuffer]
    exact hopen.mirror.mp hwriting

/-- The half-close is neither early nor forgotten. A step that issues `::shutdown(sockfd_, SHUT_WR)` on a
connection that is not closed finds the output buffer empty, and after a step that executes the
`shutdownInLoop` of a `shutdown()` it has been issued in every state with an empty output buffer. -/
theorem half_close_neither_early_nor_forgotten {others wakeups : Nat} {labels : List Label} {l : Label}
    {v v' : World} (hrun : Run.exec step (established others wakeups) labels = some v) (hstep : v.step l = some v') :
    (v.closes = 0 → v'.halfCloses ≠ v.halfCloses → v'.outputBuffer_.readable = []) ∧
      (v.executesShutdown l = true → ∀ later w, Run.exec step v' later = some w → w.closes = 0 →
        w.outputBuffer_.readable = [] → w.halfCloses ≠ []) := by
  have hinit : (established others wakeups).ShutdownInv := by
    refine ⟨established_inv others wakeups, ?_⟩
    rintro (h | h | ⟨_, h⟩)
    · simp [established, constructed, Conn.connectEstablished, Conn.enableRead, Conn.interest, Conn.check] at h
    · cases h
    · cases h
  have hinv : v.ShutdownInv :=
    Run.exec_preserves (fun _ _ _ hinv hstep => hinv.step hstep) hinit hrun
  constructor
  · intro hopen hhalved
    have hhalves := step_halves hstep
    cases hhalving : v.halving l with
    | true => exact (hhalves.settled hhalving).2 (hinv.inv.opened hopen)
    | false =>
      have hsame := hhalves.halfCloses
      rw [hhalving] at hsame
      exact (hhalved hsame).elim
  · intro hexecutes later w hlater hopen hempty hnone
    have hend : w.Inv ∧ w.Settled :=
      Run.exec_preserves (I := fun w => w.Inv ∧ w.Settled)
        (fun _ _ _ h hstep => ⟨h.1.step hstep, h.2.step h.1 hstep⟩)
        ⟨hinv.inv.step hstep, hinv.settled hstep hexecutes⟩ hlater
    exact (hend.2 hopen).2 hnone hempty

/-- A `shutdown()` of another thread meets a backlog, and the FIN follows its last byte. -/
theorem half_close_follows_backlog : ∃ v v' w : World,
    Run.exec step (established 0 0)
      [.call (.send (.chars [1, 2])) (.accepted 1), .start 0 .shutdown, .advance 0, .advance 0, .swap] = some v ∧
    v.step (.task (.accepted 0)) = some v' ∧ v'.halfCloses = [] ∧
    Run.exec step v' ([.endTasks, .poll (some EPOLLOUT)] ++ List.replicate 4 (.dispatch (.failed 0) (.accepted 1))) =
      some w ∧ w.halfCloses ≠ [] := by
  obtain ⟨v, hrun, hexecutes, hrest⟩ := Run.Reaches.exists
    (show Run.Reaches step (established 0 0)
      [.call (.send (.chars [1, 2])) (.accepted 1), .start 0 .shutdown, .advance 0, .advance 0, .swap]
      (fun v => v.executesShutdown (.task (.accepted 0)) = true ∧ Run.Reaches step v [.task (.accepted 0)] fun v' =>
        v'.halfCloses = [] ∧ Run.Reaches step v'
          ([.endTasks, .poll (some EPOLLOUT)] ++ List.replicate 4 (.dispatch (.failed 0) (.accepted 1)))
          fun w => w.closes = 0 ∧ w.outputBuffer_.readable = []) by decide +kernel)
  obtain ⟨v', hstep, hnone, hrest⟩ := hrest.exists
  obtain ⟨w, hlater, hopen, hempty⟩ := hrest.exists
  obtain ⟨t, ht, hnil⟩ := Run.exec_cons_eq_some.mp hstep
  cases hnil
  have hforgotten := (half_close_neither_early_nor_forgotten hrun ht).2
  exact ⟨v, v', w, hrun, ht, hnone, hlater, hforgotten hexecutes _ w hlater hopen hempty⟩

end World

end mudong.ev
