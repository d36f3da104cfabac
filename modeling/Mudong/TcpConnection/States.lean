import Mudong.TcpConnection.Open

namespace mudong.ev

namespace Conn

/-- Whether a callback of the dispatch runs `handleClose`: the close callback does, and so does a read that
meets the end of the stream. -/
def stageCloses (c : Conn) (read : Buffer.ReadvResult) : Stage → Bool
  | .onClose => Mask.has c.channel_.revents_ EPOLLHUP && !Mask.has c.channel_.revents_ EPOLLIN
  | .onError => false
  | .onRead =>
    Mask.has c.channel_.revents_ (EPOLLIN ||| EPOLLPRI ||| EPOLLRDHUP) && (c.inputBuffer_.readFd read).2 == 0
  | .onWrite => false

/-- Whether a task runs `handleClose`. -/
def taskCloses (c : Conn) (task : Task) : Bool := task == .forceCloseInLoop && c.state_ != .kDisconnected

/-- What a step that may run `handleClose` does to `state_` and `closes`. -/
structure ClosesIf (closing : Bool) (c c' : Conn) : Prop where
  state_ : c'.state_ = if closing then .kDisconnected else c.state_
  closes : c'.closes = if closing then c.closes + 1 else c.closes

theorem OutputFrame.closesIf {ran : List Send} {c c' : Conn} (h : OutputFrame ran c c') : ClosesIf false c c' :=
  ⟨h.state_, h.closes⟩

theorem handleRead_closesIf (c : Conn) (result : Buffer.ReadvResult) :
    ClosesIf ((c.inputBuffer_.readFd result).2 == 0) c (c.handleRead result) := by
  unfold handleRead
  dsimp only
  split
  · rename_i hfailed
    rw [hfailed]
    exact ⟨rfl, rfl⟩
  · split
    · rename_i hend
      rw [hend]
      exact ⟨rfl, rfl⟩
    · rename_i hsome
      rw [beq_false_of_ne hsome]
      exact ⟨rfl, rfl⟩

theorem runStage_closesIf (c : Conn) (read : Buffer.ReadvResult) (write : WriteResult) (stage : Stage) :
    ClosesIf (c.stageCloses read stage) c (c.runStage read write stage) := by
  cases stage with
  | onClose =>
    simp only [runStage, stageCloses]
    split
    · rename_i hclose
      rw [hclose]
      exact ⟨rfl, rfl⟩
    · rename_i hnot
      rw [Bool.eq_false_of_not_eq_true hnot]
      exact ⟨rfl, rfl⟩
  | onError =>
    simp only [runStage, stageCloses]
    split <;> exact ⟨rfl, rfl⟩
  | onRead =>
    simp only [runStage, stageCloses]
    split
    · rename_i hread
      rw [hread, Bool.true_and]
      exact handleRead_closesIf c read
    · rename_i hnot
      rw [Bool.eq_false_of_not_eq_true hnot, Bool.false_and]
      exact ⟨rfl, rfl⟩
  | onWrite =>
    simp only [runStage, stageCloses]
    split
    · exact (handleWrite_frame c write).closesIf
    · exact ⟨rfl, rfl⟩

theorem runTask_closesIf (c : Conn) (result : WriteResult) (task : Task) :
    ClosesIf (c.taskCloses task) c (c.runTask result task) := by
  cases task with
  | sendInLoop send => exact (sendInLoop_frame c send result).closesIf
  | shutdownInLoop => exact (shutdownInLoop_frame c).closesIf
  | forceCloseInLoop =>
    simp only [runTask, forceCloseInLoop, taskCloses, beq_self_eq_true, Bool.true_and]
    by_cases hstate : c.state_ = .kDisconnected
    · rw [if_neg (not_not.mpr hstate), hstate, bne_self_eq_false]
      exact ⟨rfl, rfl⟩
    · rw [if_pos hstate, bne_iff_ne.mpr hstate]
      exact ⟨rfl, rfl⟩
  | stopRead => exact (stopReadInLoop_frame c).closesIf
  | startRead => exact (startReadInLoop_frame c).closesIf
  | writeComplete => exact (OutputFrame.refl c).closesIf
  | highWaterMark len => exact (OutputFrame.refl c).closesIf
  | other => exact (OutputFrame.refl c).closesIf

theorem sendChars_state_ (c : Conn) (data : List UInt8) (result : WriteResult) :
    (c.sendChars data result).state_ = c.state_ := by
  unfold sendChars
  split
  · rfl
  · exact (sendInLoop_frame (c.observe _) _ result).state_

theorem shutdown_state_ (c : Conn) : c.shutdown.state_ = .kDisconnecting := by
  unfold shutdown
  dsimp only
  split
  · exact (shutdownInLoop_frame _).state_
  · rfl

/-- A call in the loop thread leaves `state_` alone or makes an open connection a disconnecting one, provided
that `shutdown()` is called within its assertion. -/
theorem callInLoop_state_ {c : Conn} (result : WriteResult) {api : Api}
    (hassert : api = .shutdown → c.state_ ≠ .kDisconnected) :
    (c.callInLoop result api).state_ = c.state_ ∨
      c.state_ ≠ .kDisconnected ∧ (c.callInLoop result api).state_ = .kDisconnecting := by
  cases api with
  | send payload =>
    rw [callInLoop, send_eq, sendChars_state_]
    exact Or.inl rfl
  | shutdown => exact Or.inr ⟨hassert rfl, shutdown_state_ c⟩
  | forceClose =>
    by_cases hstate : c.state_ = .kDisconnected
    · simp [callInLoop, forceClose, hstate]
    · refine Or.inr ⟨hstate, ?_⟩
      simp [callInLoop, forceClose, hstate, stateAtomicGetAndSet, queueInLoop]
  | stopRead => exact Or.inl (stopReadInLoop_frame c).state_
  | startRead => exact Or.inl (startReadInLoop_frame c).state_

end Conn

/-- Whether a thread stands between its read of `state_` and its exchange. -/
def Call.exchanging : Call → Bool
  | .shutdownExchange => true
  | .forceCloseExchange => true
  | _ => false

namespace World

/-- Whether a step runs `handleClose`. -/
def closing (w : World) : Label → Bool
  | .dispatch read _ =>
    match w.phase with
    | .handling (some stage) => w.stageCloses read stage
    | _ => false
  | .task _ =>
    match w.phase, w.tasks with
    | .running, task :: _ => w.taskCloses task
    | _, _ => false
  | _ => false

/-- Every `shutdown()` passes its assertion. -/
def ShutdownAsserted (w : World) : Label → Prop
  | .start _ .shutdown => w.state_ ≠ .kDisconnected
  | .call .shutdown _ => w.state_ ≠ .kDisconnected
  | _ => True

/-- The connection is closed only while no other thread stands between its read of `state_` and its
exchange. -/
def ClosesAlone (w : World) (l : Label) : Prop := w.closing l = true → ∀ thread, (w.calls thread).exchanging = false

instance decidableShutdownAsserted (w : World) : ∀ l, Decidable (w.ShutdownAsserted l)
  | .start _ .shutdown | .call .shutdown _ => inferInstanceAs (Decidable (w.state_ ≠ .kDisconnected))
  | .call (.send _) _ | .call .forceClose _ | .call .stopRead _ | .call .startRead _ | .start _ (.send _)
  | .start _ .forceClose | .start _ .stopRead | .start _ .startRead | .poll _ | .dispatch _ _ | .swap | .task _
  | .endTasks | .useInput _ | .setWriteCompleteCallback _ | .setHighWaterMarkCallback _ _ | .advance _
  | .pushOther => inferInstanceAs (Decidable True)

theorem step_closing {w w' : World} {l : Label} (hstep : w.step l = some w') (hclosing : w.closing l = true) :
    Conn.ClosesIf true w.toConn w'.toConn ∧ w'.calls = w.calls := by
  cases step_moves hstep with
  | dispatch hphase hfits =>
    rename_i read write stage
    have hcloses := Conn.runStage_closesIf w.toConn read write stage
    simp only [closing, hphase] at hclosing
    rw [hclosing] at hcloses
    exact ⟨hcloses, rfl⟩
  | task hphase htasks hfits =>
    rename_i write task rest
    have hcloses := Conn.runTask_closesIf w.toConn write task
    simp only [closing, hphase, htasks] at hclosing
    rw [hclosing] at hcloses
    exact ⟨hcloses, rfl⟩
  | _ => simp [closing] at hclosing

theorem step_closes_le {w w' : World} {l : Label} (hstep : w.step l = some w') : w.closes ≤ w'.closes := by
  have hclose {closing : Bool} {c : Conn} (h : Conn.ClosesIf closing w.toConn c) : w.closes ≤ c.closes := by
    rw [h.closes]
    split
    · exact Nat.le_succ _
    · exact Nat.le_refl _
  cases step_moves hstep with
  | dispatch hphase hfits => exact hclose (Conn.runStage_closesIf w.toConn _ _ _)
  | task hphase htasks hfits => exact hclose (Conn.runTask_closesIf w.toConn _ _)
  | call hphase hfits => exact (Conn.callInLoop_calm w.toConn _ _).closes.symm.le
  | _ => exact Nat.le_refl _

/-- Nobody is about to overwrite `kDisconnected`. -/
def ClosedForGood (w : World) : Prop :=
  w.state_ = .kDisconnected → ∀ thread, (w.calls thread).exchanging = false

theorem setCall_exchanging {w : World} (h : ∀ thread, (w.calls thread).exchanging = false) (thread : Nat)
    {call : Call} (hcall : call.exchanging = false) (thread' : Nat) :
    ((w.setCall thread call).calls thread').exchanging = false := by
  by_cases heq : thread' = thread
  · simp [setCall, heq, hcall]
  · simpa [setCall, Function.update_of_ne heq] using h thread'

/-- A closed connection on which nobody is about to exchange stays so, and one that is closed alone becomes
so. -/
theorem ClosedForGood.step {w w' : World} {l : Label} (hinv : w.ClosedForGood) (hassert : w.ShutdownAsserted l)
    (halone : w.ClosesAlone l) (hstep : w.step l = some w') :
    w'.ClosedForGood ∧ (w.state_ = .kDisconnected → w'.state_ = .kDisconnected) := by
  have hclose {w' : World} (hcalls : w'.calls = w.calls)
      (hcloses : Conn.ClosesIf (w.closing l) w.toConn w'.toConn) :
      w'.ClosedForGood ∧ (w.state_ = .kDisconnected → w'.state_ = .kDisconnected) := by
    have hstate := hcloses.state_
    unfold ClosedForGood
    rw [hcalls, hstate]
    cases hclosing : w.closing l with
    | true => exact ⟨fun _ => halone hclosing, fun _ => rfl⟩
    | false => exact ⟨hinv, id⟩
  have hkeep {w' : World} (hcalls : w'.calls = w.calls) (hstate : w'.state_ = w.state_) :
      w'.ClosedForGood ∧ (w.state_ = .kDisconnected → w'.state_ = .kDisconnected) := by
    unfold ClosedForGood
    rw [hcalls, hstate]
    exact ⟨hinv, id⟩
  have hset {w' : World} {thread : Nat} {call : Call} (hcalls : w'.calls = w.calls) (hstate : w'.state_ = w.state_)
      (hcall : w.state_ = .kDisconnected → call.exchanging = false) :
      (w'.setCall thread call).ClosedForGood ∧
        (w.state_ = .kDisconnected → (w'.setCall thread call).state_ = .kDisconnected) := by
    refine ⟨fun h => ?_, fun h => hstate.trans h⟩
    have hdisconnected : w.state_ = .kDisconnected := hstate.symm.trans h
    exact setCall_exchanging (by rw [hcalls]; exact hinv hdisconnected) thread (hcall hdisconnected)
  have hexchange {thread : Nat} {call : Call} (hwaiting : (w.calls thread).exchanging = true) :
      (setCall { w with state_ := .kDisconnecting } thread call).ClosedForGood ∧ (w.state_ = .kDisconnected →
        (setCall { w with state_ := .kDisconnecting } thread call).state_ = .kDisconnected) := by
    refine ⟨fun h => ?_, fun h => ?_⟩
    · simp [setCall] at h
    · simp [hinv h thread] at hwaiting
  cases step_moves hstep with
  | pollOther hphase => exact hkeep rfl rfl
  | poll hphase hreport => exact hkeep rfl rfl
  | dispatch hphase hfits =>
    refine hclose rfl ?_
    simp only [closing, hphase]
    exact Conn.runStage_closesIf w.toConn _ _ _
  | swap hphase => exact hkeep rfl rfl
  | task hphase htasks hfits =>
    refine hclose rfl ?_
    simp only [closing, hphase, htasks]
    exact Conn.runTask_closesIf w.toConn _ _
  | endTasks hphase htasks => exact hkeep rfl rfl
  | call hphase hfits =>
    rename_i api write
    have hshutdown : api = .shutdown → w.state_ ≠ .kDisconnected := by
      rintro rfl
      exact hassert
    obtain hstate | ⟨hlive, hstate⟩ := Conn.callInLoop_state_ write hshutdown
    · exact hkeep rfl hstate
    · refine ⟨fun h => ?_, fun h => (hlive h).elim⟩
      simp [hstate] at h
  | useInput hphase => exact hkeep rfl rfl
  | setWriteCompleteCallback hphase => exact hkeep rfl rfl
  | setHighWaterMarkCallback hphase => exact hkeep rfl rfl
  | giveUpSend hidle hstate => exact hkeep rfl rfl
  | startSend hidle hstate => exact hset rfl rfl (fun _ => rfl)
  | startShutdown hidle => exact hset rfl rfl (fun h => (hassert h).elim)
  | startForceClose hidle hstate => exact hset rfl rfl (fun h => (hstate h).elim)
  | giveUpForceClose hidle hstate => exact hkeep rfl rfl
  | startStopRead hidle => exact hset rfl rfl (fun _ => rfl)
  | startStartRead hidle => exact hset rfl rfl (fun _ => rfl)
  | exchangeShutdown hcall => exact hexchange (by rw [hcall]; rfl)
  | exchangeForceClose hcall => exact hexchange (by rw [hcall]; rfl)
  | push hcall => exact hset rfl rfl (fun _ => rfl)
  | wakeup hcall => exact hset rfl rfl (fun _ => rfl)
  | pushOther => exact hkeep rfl rfl

/-- Once the connection is disconnected it stays so, in every run that closes it only while no other thread
stands between its read of `state_` and its exchange. -/
theorem disconnected_absorbing_when_alone {others wakeups : Nat} {ls ms : List Label} {w w' : World}
    (hassert : Run.Along step ShutdownAsserted (established others wakeups) (ls ++ ms))
    (halone : Run.Along step ClosesAlone (established others wakeups) (ls ++ ms))
    (hrun : Run.exec step (established others wakeups) ls = some w) (hrest : Run.exec step w ms = some w')
    (hstate : w.state_ = .kDisconnected) : w'.state_ = .kDisconnected := by
  obtain ⟨hassert, hassert'⟩ := hassert.append hrun
  obtain ⟨halone, halone'⟩ := halone.append hrun
  have hinit : (established others wakeups).ClosedForGood := fun _ _ => rfl
  have hclosed : w.ClosedForGood :=
    Run.exec_invariant (fun _ _ _ hinv hl hstep => (hinv.step hl.1 hl.2 hstep).1) hinit (hassert.and halone) hrun
  have hend : w'.ClosedForGood ∧ w'.state_ = .kDisconnected :=
    Run.exec_invariant (I := fun w => w.ClosedForGood ∧ w.state_ = .kDisconnected)
      (fun _ _ _ hinv hl hstep => (hinv.1.step hl.1 hl.2 hstep).imp_right (fun h => h hinv.2)) ⟨hclosed, hstate⟩
      (hassert'.and halone') hrest
  exact hend.2

theorem disconnected_absorbing_after_forceClose : ∃ w w' : World,
    Run.exec step (established 0 0)
      [.start 0 .forceClose, .advance 0, .advance 0, .advance 0, .swap, .task (.accepted 0)] = some w ∧
    Run.exec step w [.endTasks, .start 1 .forceClose, .poll none] = some w' ∧ w.state_ = .kDisconnected ∧
      w'.state_ = .kDisconnected := by
  obtain ⟨w, hrun, hstate, hrest⟩ := Run.Reaches.exists
    (show Run.Reaches step (established 0 0)
      [.start 0 .forceClose, .advance 0, .advance 0, .advance 0, .swap, .task (.accepted 0)]
      (fun w => w.state_ = .kDisconnected ∧
        Run.Reaches step w [.endTasks, .start 1 .forceClose, .poll none] fun _ => True) by decide +kernel)
  obtain ⟨w', hrest, _⟩ := hrest.exists
  refine ⟨w, w', hrun, hrest, hstate, disconnected_absorbing_when_alone ?_ ?_ hrun hrest hstate⟩
  · decide +kernel
  · have hquiet {w : World} {l : Label} (h : w.closing l = false) : w.ClosesAlone l :=
      fun hclosing => by simp [h] at hclosing
    refine And.intro (hquiet rfl) (And.intro (hquiet rfl) (And.intro (hquiet rfl) (And.intro (hquiet rfl)
      (And.intro (hquiet rfl) (And.intro ?_ (And.intro (hquiet rfl) (And.intro (hquiet rfl)
        (And.intro (hquiet rfl) trivial))))))))
    intro _ thread
    cases thread <;> rfl

/-- A close between the read and the exchange of another thread is overwritten by that exchange. -/
theorem overwritten_when_not_alone {w w' : World} {l : Label} {thread : Nat} (hstep : w.step l = some w')
    (hclosing : w.closing l = true) (hwaiting : (w.calls thread).exchanging = true) :
    w'.state_ = .kDisconnected ∧ ∃ w'', w'.step (.advance thread) = some w'' ∧ w''.state_ = .kDisconnecting := by
  obtain ⟨⟨hstate, _⟩, hcalls⟩ := step_closing hstep hclosing
  refine ⟨hstate, ?_⟩
  rw [← hcalls] at hwaiting
  cases hcall : w'.calls thread with
  | shutdownExchange =>
    simp only [step, advanceCall, hcall]
    exact ⟨_, rfl, rfl⟩
  | forceCloseExchange =>
    simp only [step, advanceCall, hcall]
    exact ⟨_, rfl, rfl⟩
  | idle => simp [hcall, Call.exchanging] at hwaiting
  | push task => simp [hcall, Call.exchanging] at hwaiting
  | wakeup task => simp [hcall, Call.exchanging] at hwaiting

/-- A thread that has found the connection open in `forceClose()` makes it disconnecting again after the loop
thread has closed it. -/
theorem disconnected_overwritten : ∃ w w' : World,
    Run.Along step ShutdownAsserted (established 0 0)
      ([.start 0 .forceClose, .swap, .endTasks, .poll (some EPOLLHUP), .dispatch (.failed 0) (.accepted 0)] ++
        [.advance 0]) ∧
    Run.exec step (established 0 0)
      [.start 0 .forceClose, .swap, .endTasks, .poll (some EPOLLHUP), .dispatch (.failed 0) (.accepted 0)] =
        some w ∧
    Run.exec step w [.advance 0] = some w' ∧ w.state_ = .kDisconnected ∧ w'.state_ ≠ .kDisconnected := by
  obtain ⟨w, hrun, hstate, hrest⟩ := Run.Reaches.exists
    (show Run.Reaches step (established 0 0)
      [.start 0 .forceClose, .swap, .endTasks, .poll (some EPOLLHUP), .dispatch (.failed 0) (.accepted 0)]
      (fun w => w.state_ = .kDisconnected ∧ Run.Reaches step w [.advance 0] fun w => w.state_ ≠ .kDisconnected) by
        decide +kernel)
  obtain ⟨w', hrest, hstate'⟩ := hrest.exists
  exact ⟨w, w', by decide +kernel, hrun, hrest, hstate, hstate'⟩

end World

end mudong.ev
