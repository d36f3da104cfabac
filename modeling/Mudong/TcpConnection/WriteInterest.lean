import Mudong.TcpConnection.Assertions
import Mudong.TcpConnection.States

namespace mudong.ev

/-- The assertions about the output buffer and the write interest. -/
def Assertion.ofOutput : Assertion → Bool
  | .handleWriteReadable => true
  | .handleWriteWriting => true
  | .sendInLoop => true
  | _ => false

namespace World

/-- Other threads only send; the rest of the operations is called in the loop thread, and `shutdown()` within
its assertion. -/
def LoopControlled (w : World) : Label → Prop
  | .start _ (.send _) => True
  | .start _ _ => False
  | .call .shutdown _ => w.state_ ≠ .kDisconnected
  | _ => True

instance decidableLoopControlled (w : World) : ∀ l, Decidable (w.LoopControlled l)
  | .start _ .shutdown | .start _ .forceClose | .start _ .stopRead | .start _ .startRead =>
    inferInstanceAs (Decidable False)
  | .call .shutdown _ => inferInstanceAs (Decidable (w.state_ ≠ .kDisconnected))
  | .call (.send _) _ | .call .forceClose _ | .call .stopRead _ | .call .startRead _ | .start _ (.send _)
  | .poll _ | .dispatch _ _ | .swap | .task _ | .endTasks | .useInput _ | .setWriteCompleteCallback _
  | .setHighWaterMarkCallback _ _ | .advance _ | .pushOther => inferInstanceAs (Decidable True)

/-- The invariant of the runs that are controlled by the loop thread: a closed connection is disconnected,
since nobody exchanges its state, and no assertion about the output has failed. -/
structure ControlledInv (w : World) : Prop where
  inv : w.Inv
  closed : w.closes ≠ 0 → w.state_ = .kDisconnected
  unshared : ∀ thread, (w.calls thread).exchanging = false
  asserted : ∀ site ∈ w.failures, site.ofOutput = false

theorem ControlledInv.open_of_live {w : World} (hinv : w.ControlledInv) (hlive : w.state_ ≠ .kDisconnected) :
    w.closes = 0 ∧ w.toConn.Open := by
  have hclosed : w.closes = 0 := by
    by_contra hne
    exact hlive (hinv.closed hne)
  exact ⟨hclosed, hinv.inv.opened hclosed⟩

theorem ControlledInv.sendAsserts {w : World} (hinv : w.ControlledInv) : w.SendAsserts := by
  intro hlive hidle
  obtain ⟨_, hopen⟩ := hinv.open_of_live hlive
  rw [ValidBuffer.readableBytes_eq, List.length_eq_zero_iff]
  by_contra hne
  simp [hopen.mirror.mpr hne] at hidle

/-- The stages of a dispatch fail no assertion about the output: a reported `EPOLLOUT` is not stale. -/
theorem ControlledInv.runStage_failsOnly {w : World} (hinv : w.ControlledInv) {stage : Stage}
    (hphase : w.phase = .handling (some stage)) (read : Buffer.ReadvResult) (write : WriteResult) :
    Conn.FailsOnly (fun site => site.ofOutput = false) w.toConn (w.runStage read write stage) := by
  refine Conn.runStage_failsOnly w.toConn read write (fun _ _ => rfl) (fun _ _ => ⟨fun _ => rfl, fun _ => rfl⟩) ?_ rfl
  intro _ hout hlive
  obtain ⟨hclosed, hopen⟩ := hinv.open_of_live hlive
  have hfresh : w.channel_.isWriting = true := hinv.inv.fresh hclosed stage hphase hout
  refine ⟨fun hempty => ?_, fun hidle => ?_⟩
  · rw [ValidBuffer.readableBytes_eq, List.length_eq_zero_iff] at hempty
    exact (hopen.mirror.mp hfresh hempty).elim
  · simp [hfresh] at hidle

theorem ControlledInv.step {w w' : World} {l : Label} (hinv : w.ControlledInv) (hloop : w.LoopControlled l)
    (hstep : w.step l = some w') : w'.ControlledInv := by
  have hinv' : w'.Inv := hinv.inv.step hstep
  have hbuild (hclosed : w'.closes ≠ 0 → w'.state_ = .kDisconnected)
      (hcalls : ∀ thread, (w'.calls thread).exchanging = false)
      (hfails : Conn.FailsOnly (fun site => site.ofOutput = false) w.toConn w'.toConn) : w'.ControlledInv := by
    obtain ⟨sites, hsites, hoff⟩ := hfails
    refine ⟨hinv', hclosed, hcalls, fun site hsite => ?_⟩
    rw [hsites, List.mem_append] at hsite
    obtain hold | hnew := hsite
    · exact hinv.asserted site hold
    · exact hoff site hnew
  have hkeep (hclosed : w'.closes = w.closes ∧ w'.state_ = w.state_)
      (hcalls : ∀ thread, (w'.calls thread).exchanging = false) (hfailures : w'.failures = w.failures) :
      w'.ControlledInv := by
    refine hbuild ?_ hcalls (.of_eq hfailures)
    rw [hclosed.1, hclosed.2]
    exact hinv.closed
  have hclose {closing : Bool} (hcloses : Conn.ClosesIf closing w.toConn w'.toConn) :
      w'.closes ≠ 0 → w'.state_ = .kDisconnected := by
    intro h
    rw [hcloses.state_]
    rw [hcloses.closes] at h
    cases closing with
    | true => rfl
    | false => exact hinv.closed h
  have hnotWaiting {thread : Nat} {call : Call} (hcall : w.calls thread = call) : call.exchanging = false :=
    hcall ▸ hinv.unshared thread
  cases step_moves hstep with
  | pollOther hphase => exact hkeep ⟨rfl, rfl⟩ hinv.unshared rfl
  | poll hphase hreport => exact hkeep ⟨rfl, rfl⟩ hinv.unshared rfl
  | dispatch hphase hfits =>
    exact hbuild (hclose (Conn.runStage_closesIf w.toConn _ _ _)) hinv.unshared
      (hinv.runStage_failsOnly hphase _ _)
  | swap hphase => exact hkeep ⟨rfl, rfl⟩ hinv.unshared rfl
  | task hphase htasks hfits =>
    exact hbuild (hclose (Conn.runTask_closesIf w.toConn _ _)) hinv.unshared
      (Conn.runTask_failsOnly w.toConn _ _ (fun hnot => (hnot hinv.sendAsserts).elim) (fun _ => rfl) rfl)
  | endTasks hphase htasks => exact hkeep ⟨rfl, rfl⟩ hinv.unshared rfl
  | call hphase hfits =>
    rename_i api write
    have hassert : api = .shutdown → w.state_ ≠ .kDisconnected := by
      rintro rfl
      exact hloop
    refine hbuild ?_ hinv.unshared
      (Conn.callInLoop_failsOnly w.toConn write api (fun hnot => (hnot hinv.sendAsserts).elim) (fun _ => rfl) rfl)
    intro hcloses
    have hdisconnected : w.state_ = .kDisconnected := by
      refine hinv.closed ?_
      rw [← (Conn.callInLoop_calm w.toConn write api).closes]
      exact hcloses
    obtain hstate | ⟨hlive, _⟩ := Conn.callInLoop_state_ write hassert
    · exact hstate.trans hdisconnected
    · exact (hlive hdisconnected).elim
  | useInput hphase => exact hkeep ⟨rfl, rfl⟩ hinv.unshared rfl
  | setWriteCompleteCallback hphase => exact hkeep ⟨rfl, rfl⟩ hinv.unshared rfl
  | setHighWaterMarkCallback hphase => exact hkeep ⟨rfl, rfl⟩ hinv.unshared rfl
  | giveUpSend hidle hstate => exact hinv
  | startSend hidle hstate => exact hkeep ⟨rfl, rfl⟩ (setCall_exchanging hinv.unshared _ rfl) rfl
  | startShutdown hidle => exact hloop.elim
  | startForceClose hidle hstate => exact hloop.elim
  | giveUpForceClose hidle hstate => exact hinv
  | startStopRead hidle => exact hloop.elim
  | startStartRead hidle => exact hloop.elim
  | exchangeShutdown hcall => exact (Bool.noConfusion (hnotWaiting hcall))
  | exchangeForceClose hcall => exact (Bool.noConfusion (hnotWaiting hcall))
  | push hcall => exact hkeep ⟨rfl, rfl⟩ (setCall_exchanging hinv.unshared _ rfl) rfl
  | wakeup hcall => exact hkeep ⟨rfl, rfl⟩ (setCall_exchanging hinv.unshared _ rfl) rfl
  | pushOther => exact hkeep ⟨rfl, rfl⟩ hinv.unshared rfl

theorem established_failures (others wakeups : Nat) : (established others wakeups).failures = [] := by
  have hupdate : EPollPoller.UpdateAsserts
      { Channel.init with events_ := InterestOp.enableRead.apply Channel.init.events_ } := by decide
  simp [established, constructed, Conn.connectEstablished, Conn.enableRead, Conn.interest, Conn.check, hupdate]

/-- In every run controlled by the loop thread an open connection has write interest exactly while it has a
backlog, and the assertions about the output never fail. -/
theorem write_interest_mirrors_backlog {others wakeups : Nat} {labels : List Label} {w : World}
    (hloop : Run.Along step LoopControlled (established others wakeups) labels)
    (hrun : Run.exec step (established others wakeups) labels = some w) :
    (w.state_ ≠ .kDisconnected → (w.channel_.isWriting = true ↔ 0 < w.outputBuffer_.readableBytes)) ∧
      .handleWriteReadable ∉ w.failures ∧ .handleWriteWriting ∉ w.failures ∧ .sendInLoop ∉ w.failures := by
  have hinit : (established others wakeups).ControlledInv :=
    ⟨established_inv others wakeups, fun h => (h rfl).elim, fun _ => rfl, by simp [established_failures]⟩
  have hinv : w.ControlledInv := Run.exec_invariant (fun _ _ _ hinv hl hstep => hinv.step hl hstep) hinit hloop hrun
  have hnot {site : Assertion} (hsite : site.ofOutput = true) : site ∉ w.failures := by
    intro hmem
    simp [hinv.asserted site hmem] at hsite
  refine ⟨fun hlive => ?_, hnot rfl, hnot rfl, hnot rfl⟩
  rw [ValidBuffer.readableBytes_eq, List.length_pos_iff]
  exact (hinv.open_of_live hlive).2.mirror

theorem write_interest_mirrors_backlog_partial_write : ∃ w : World,
    Run.exec step (established 0 0)
      [.call (.send (.chars [1, 2, 3])) (.accepted 1), .start 0 (.send (.stringView [4])), .advance 0] = some w ∧
    w.outputBuffer_.readableBytes = 2 ∧
    (w.state_ ≠ .kDisconnected → (w.channel_.isWriting = true ↔ 0 < w.outputBuffer_.readableBytes)) ∧
      .handleWriteReadable ∉ w.failures ∧ .handleWriteWriting ∉ w.failures ∧ .sendInLoop ∉ w.failures := by
  apply Run.Reaches.exists_of (p := fun w => w.outputBuffer_.readableBytes = 2)
  · decide +kernel
  · intro w hrun hbytes
    exact ⟨hbytes, write_interest_mirrors_backlog (by decide +kernel) hrun⟩

end World

end mudong.ev
