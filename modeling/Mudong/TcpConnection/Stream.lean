import Mudong.TcpConnection.Ledger
import Mudong.TcpConnection.States

namespace mudong.ev

/-- The writes of the step do not find the peer gone. -/
def Label.unbroken : Label → Bool
  | .dispatch _ write => !write.Broken
  | .task write => !write.Broken
  | .call _ write => !write.Broken
  | _ => true

namespace Conn

/-- Every byte of the executed sends has been accepted by the kernel or waits in the output buffer, in
order. -/
def Whole (c : Conn) : Prop := c.accepted ++ c.outputBuffer_.readable = (c.executed.map Send.data).flatten

/-- The accepted part of a send directly follows what was accepted before, since there is no backlog when
something is written directly. -/
theorem Whole.sendInLoop {c : Conn} (h : c.Whole) (hopen : c.Open) (send : Send) {result : WriteResult}
    (hresult : result.Broken = false) : (c.sendInLoop send result).Whole := by
  obtain ⟨sent, kept, haccepted, hreadable, _, hbehind, hdata⟩ :=
    sendInLoop_spec hopen.not_disconnected send result
  have hswap : sent ++ c.outputBuffer_.readable = c.outputBuffer_.readable ++ sent := by
    cases hwriting : c.channel_.isWriting with
    | true => rw [hbehind hwriting, List.nil_append, List.append_nil]
    | false =>
      have hempty : c.outputBuffer_.readable = [] := by
        by_contra hne
        simp [hopen.mirror.mpr hne] at hwriting
      rw [hempty, List.nil_append, List.append_nil]
  unfold Whole at h ⊢
  calc (c.sendInLoop send result).accepted ++ (c.sendInLoop send result).outputBuffer_.readable
      = c.accepted ++ (sent ++ c.outputBuffer_.readable) ++ kept := by
        rw [haccepted, hreadable]
        simp only [List.append_assoc]
    _ = c.accepted ++ c.outputBuffer_.readable ++ (sent ++ kept) := by
        rw [hswap]
        simp only [List.append_assoc]
    _ = ((c.sendInLoop send result).executed.map Send.data).flatten := by
        rw [h, hdata hresult, sendInLoop_executed]
        simp

theorem Whole.handleWrite {c : Conn} (h : c.Whole) (result : WriteResult) : (c.handleWrite result).Whole := by
  by_cases hlive : c.state_ = .kDisconnected
  · simpa [Conn.handleWrite, hlive] using h
  · obtain ⟨gone, haccepted, hreadable, hexecuted, _⟩ := handleWrite_spec hlive result
    unfold Whole
    rw [haccepted, hexecuted, List.append_assoc, hreadable]
    exact h

theorem Whole.handleRead {c : Conn} (h : c.Whole) (result : Buffer.ReadvResult) : (c.handleRead result).Whole := by
  unfold Conn.handleRead
  dsimp only
  split
  · exact h
  · split <;> exact h

theorem Whole.stopReadInLoop {c : Conn} (h : c.Whole) : c.stopReadInLoop.Whole := by
  unfold Conn.stopReadInLoop
  split <;> exact h

theorem Whole.startReadInLoop {c : Conn} (h : c.Whole) : c.startReadInLoop.Whole := by
  unfold Conn.startReadInLoop
  split <;> exact h

theorem Whole.shutdownInLoop {c : Conn} (h : c.Whole) : c.shutdownInLoop.Whole := by
  unfold Conn.shutdownInLoop
  split <;> exact h

theorem Whole.runStage {c : Conn} (h : c.Whole) (read : Buffer.ReadvResult) (write : WriteResult) (stage : Stage) :
    (c.runStage read write stage).Whole := by
  cases stage with
  | onClose =>
    simp only [Conn.runStage]
    split <;> exact h
  | onError =>
    simp only [Conn.runStage]
    split <;> exact h
  | onRead =>
    simp only [Conn.runStage]
    split
    · exact h.handleRead read
    · exact h
  | onWrite =>
    simp only [Conn.runStage]
    split
    · exact h.handleWrite write
    · exact h

theorem Whole.runTask {c : Conn} (h : c.Whole) (hopen : c.Open) {write : WriteResult}
    (hwrite : write.Broken = false) (task : Task) : (c.runTask write task).Whole := by
  cases task with
  | sendInLoop send => exact h.sendInLoop hopen send hwrite
  | shutdownInLoop => exact h.shutdownInLoop
  | forceCloseInLoop =>
    simp only [Conn.runTask, Conn.forceCloseInLoop]
    split <;> exact h
  | stopRead => exact h.stopReadInLoop
  | startRead => exact h.startReadInLoop
  | writeComplete => exact h
  | highWaterMark len => exact h
  | other => exact h

theorem Whole.callInLoop {c : Conn} (h : c.Whole) (hopen : c.Open) {write : WriteResult}
    (hwrite : write.Broken = false) (api : Api) : (c.callInLoop write api).Whole := by
  cases api with
  | send payload =>
    rw [Conn.callInLoop, send_eq]
    unfold sendChars
    split
    · exact h
    · exact Whole.sendInLoop (c := c.observe _) h ⟨hopen.live, hopen.mirror, hopen.armed⟩ _ hwrite
  | shutdown =>
    have hexchange : Whole
        (((c.check .shutdown (c.state_ ≠ .kDisconnected)).follow .loop).stateAtomicGetAndSet .kDisconnecting).2 := h
    simp only [Conn.callInLoop, shutdown]
    split
    · exact hexchange.shutdownInLoop
    · exact hexchange
  | forceClose =>
    simp only [Conn.callInLoop, forceClose]
    split
    · split <;> exact h
    · exact h
  | stopRead => exact h.stopReadInLoop
  | startRead => exact h.startReadInLoop

end Conn

namespace World

/-- A step of an open connection loses, duplicates or reorders no byte. -/
theorem step_whole {w w' : World} {l : Label} (hopen : w.toConn.Open) (hunbroken : l.unbroken = true)
    (h : w.toConn.Whole) (hstep : w.step l = some w') : w'.toConn.Whole := by
  cases step_moves hstep with
  | dispatch hphase hfits => exact h.runStage _ _ _
  | task hphase htasks hfits => exact h.runTask hopen (by simpa [Label.unbroken] using hunbroken) _
  | call hphase hfits => exact h.callInLoop hopen (by simpa [Label.unbroken] using hunbroken) _
  | _ => exact h

/-- While the connection is not closed, no byte is lost, duplicated or reordered. -/
theorem run_whole {others wakeups : Nat} {labels : List Label} {w : World}
    (hwrites : ∀ l ∈ labels, l.unbroken = true) (hrun : Run.exec step (established others wakeups) labels = some w) :
    w.Inv ∧ (w.closes = 0 → w.toConn.Whole) := by
  refine Run.exec_invariant (I := fun w => w.Inv ∧ (w.closes = 0 → w.toConn.Whole)) (C := fun _ l => l.unbroken = true)
    ?_ ⟨established_inv others wakeups, fun _ => ValidBuffer.readable_init _⟩ (.of_labels hwrites) hrun
  intro v l v' ⟨hinv, hwhole⟩ hl hstep
  refine ⟨hinv.step hstep, fun hclosed => ?_⟩
  have hwas : v.closes = 0 := Nat.le_zero.mp (hclosed ▸ step_closes_le hstep)
  exact step_whole (hinv.opened hwas) hl (hwhole hwas) hstep

private theorem pushed_of_inHand (calls : Nat → Call) (t : Thread) :
    inCall Call.pushed calls t <+: inCall Call.inHand calls t := by
  cases t with
  | loop => exact List.prefix_refl _
  | other thread =>
    simp only [inCall]
    cases calls thread with
    | wakeup task => exact List.prefix_refl _
    | _ => exact List.nil_prefix

/-- Every completed send is among the executed and the queued ones exactly once. -/
theorem Ledger.count_eq_one {w : World} (hinv : w.Ledger) {send : Send} (hsend : send ∈ w.completed) :
    (w.executed ++ w.queued).count send = 1 := by
  have hthread {sends : List Send} : (ofThread send.thread sends).count send = sends.count send :=
    List.count_filter (by simp)
  have hnodup : w.observed.Nodup := by
    refine List.Nodup.of_map Send.serial ?_
    rw [hinv.serials]
    exact List.nodup_range
  have hfirst : ofThread send.thread (w.executed ++ w.queued) <+: ofThread send.thread w.observed := by
    rw [hinv.pushed, hinv.observed, List.prefix_append_right_inj]
    exact pushed_of_inHand w.calls send.thread
  have hle : (w.executed ++ w.queued).count send ≤ 1 := by
    rw [← hthread]
    refine (hfirst.sublist.count_le send).trans ?_
    rw [hthread]
    exact List.nodup_iff_count_le_one.mp hnodup send
  have hpos : 0 < (w.executed ++ w.queued).count send := by
    rw [← hthread, hinv.pushed, List.count_pos_iff]
    refine List.mem_append_left _ (List.mem_filter.mpr ⟨hsend, by simp⟩)
  omega

theorem established_ledger (others wakeups : Nat) : (established others wakeups).Ledger := by
  have hothers : sendsIn (List.replicate others .other) = [] := by
    induction others with
    | zero => rfl
    | succ others ih => exact ih
  have hqueued : (established others wakeups).queued = [] := hothers
  refine ⟨fun _ => rfl, rfl, ?_, ?_, ?_⟩
  · intro t
    cases t <;> rfl
  · intro t
    rw [hqueued]
    cases t <;> rfl
  · rw [hqueued]
    rfl

/-- The output of a connection that is not closed and whose peer is not gone is the concatenation of the
executed sends. Every completed send is executed or queued exactly once, and the sends of one thread are
executed and queued in the order of the thread. -/
theorem output_stream_integrity {others wakeups : Nat} {labels : List Label} {w : World}
    (hwrites : ∀ l ∈ labels, l.unbroken = true) (hrun : Run.exec step (established others wakeups) labels = some w)
    (hopen : w.closes = 0) :
    w.accepted ++ w.outputBuffer_.readable = (w.executed.map Send.data).flatten ∧
      (∀ send ∈ w.completed, (w.executed ++ w.queued).count send = 1) ∧
      ∀ thread, ofThread thread w.completed <+: ofThread thread (w.executed ++ w.queued) := by
  have hwhole := run_whole hwrites hrun
  have hledger : w.Ledger :=
    Run.exec_invariant (C := fun _ l => l.unbroken = true) (fun _ _ _ hinv _ hstep => hinv.step hstep)
      (established_ledger others wakeups) (.of_labels hwrites) hrun
  refine ⟨hwhole.2 hopen, fun send => hledger.count_eq_one, fun thread => ?_⟩
  rw [hledger.pushed]
  exact List.prefix_append _ _

theorem output_stream_integrity_backlog : ∃ w : World,
    Run.exec step (established 0 0)
      [.call (.send (.chars [1, 2, 3])) (.accepted 1), .start 0 (.send (.stringView [4])), .advance 0, .advance 0,
        .swap, .task (.failed EAGAIN)] = some w ∧ w.accepted = [1] ∧ w.completed.length = 2 ∧
    w.accepted ++ w.outputBuffer_.readable = (w.executed.map Send.data).flatten ∧
      (∀ send ∈ w.completed, (w.executed ++ w.queued).count send = 1) ∧
      ∀ thread, ofThread thread w.completed <+: ofThread thread (w.executed ++ w.queued) := by
  apply Run.Reaches.exists_of (p := fun w => w.accepted = [1] ∧ w.completed.length = 2 ∧ w.closes = 0)
  · decide +kernel
  · rintro w hrun ⟨haccepted, hcompleted, hopen⟩
    exact ⟨haccepted, hcompleted, output_stream_integrity (by decide) hrun hopen⟩

end World

end mudong.ev
