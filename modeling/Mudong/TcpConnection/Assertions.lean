import Mudong.TcpConnection.World

namespace mudong.ev.Conn

variable {P : Assertion → Prop}

/-- Between the two states only assertions that satisfy `P` have failed. -/
def FailsOnly (P : Assertion → Prop) (c c' : Conn) : Prop :=
  ∃ sites, c'.failures = c.failures ++ sites ∧ ∀ site ∈ sites, P site

theorem FailsOnly.of_eq {c c' : Conn} (h : c'.failures = c.failures) : FailsOnly P c c' :=
  ⟨[], by rw [h, List.append_nil], by simp⟩

theorem FailsOnly.trans {c d e : Conn} (h : FailsOnly P c d) (h' : FailsOnly P d e) : FailsOnly P c e := by
  obtain ⟨sites, hsites, hP⟩ := h
  obtain ⟨sites', hsites', hP'⟩ := h'
  refine ⟨sites ++ sites', by rw [hsites', hsites, List.append_assoc], ?_⟩
  intro site hsite
  obtain hsite | hsite := List.mem_append.mp hsite
  · exact hP site hsite
  · exact hP' site hsite

theorem check_failsOnly (c : Conn) {site : Assertion} {p : Prop} [Decidable p] (h : ¬p → P site) :
    FailsOnly P c (c.check site p) := by
  by_cases hp : p
  · exact .of_eq (by simp [check, hp])
  · refine ⟨[site], by simp [check, hp], ?_⟩
    simpa using h hp

theorem interest_failsOnly (c : Conn) (op : InterestOp) (h : P .updateChannel) : FailsOnly P c (c.interest op) :=
  check_failsOnly c (fun _ => h)

theorem shutdownInLoop_failsOnly (c : Conn) : FailsOnly P c c.shutdownInLoop := by
  unfold shutdownInLoop
  split <;> exact .of_eq rfl

theorem stopReadInLoop_failsOnly (c : Conn) (h : P .updateChannel) : FailsOnly P c c.stopReadInLoop := by
  unfold stopReadInLoop
  split
  · exact interest_failsOnly c _ h
  · exact .of_eq rfl

theorem startReadInLoop_failsOnly (c : Conn) (h : P .updateChannel) : FailsOnly P c c.startReadInLoop := by
  unfold startReadInLoop
  split
  · exact .of_eq rfl
  · exact interest_failsOnly c _ h

theorem shutdown_failsOnly (c : Conn) (h : c.state_ = .kDisconnected → P .shutdown) : FailsOnly P c c.shutdown := by
  have hexchange : FailsOnly P c
      (((c.check .shutdown (c.state_ ≠ .kDisconnected)).follow .loop).stateAtomicGetAndSet .kDisconnecting).2 :=
    check_failsOnly c (fun hnot => h (not_not.mp hnot))
  unfold shutdown
  dsimp only
  split
  · exact hexchange.trans (shutdownInLoop_failsOnly _)
  · exact hexchange

theorem forceClose_failsOnly (c : Conn) : FailsOnly P c c.forceClose := by
  unfold forceClose
  split
  · dsimp only
    split <;> exact .of_eq rfl
  · exact .of_eq rfl

theorem handleClose_failsOnly (c : Conn)
    (h : ¬(c.state_ = .kConnected ∨ c.state_ = .kDisconnecting) → P .handleClose) (hupdate : P .updateChannel) :
    FailsOnly P c c.handleClose := by
  have hcheck : FailsOnly P c
      (c.check .handleClose (c.state_ = .kConnected ∨ c.state_ = .kDisconnecting)) := check_failsOnly c h
  refine hcheck.trans ?_
  exact interest_failsOnly { c.check .handleClose (c.state_ = .kConnected ∨ c.state_ = .kDisconnecting) with
    state_ := .kDisconnected } .disableAll hupdate

theorem handleRead_failsOnly (c : Conn) (result : Buffer.ReadvResult)
    (h : c.state_ = .kDisconnected → P .handleRead)
    (hclose : ¬(c.state_ = .kConnected ∨ c.state_ = .kDisconnecting) → P .handleClose)
    (hupdate : P .updateChannel) : FailsOnly P c (c.handleRead result) := by
  have hread : FailsOnly P c (c.readInput result) := check_failsOnly c (fun hnot => h (not_not.mp hnot))
  unfold handleRead
  dsimp only
  split
  · exact hread
  · split
    · exact hread.trans (handleClose_failsOnly _ hclose hupdate)
    · exact hread

/-- The assertion of `sendInLoop`, where it is reached. -/
def SendAsserts (c : Conn) : Prop :=
  c.state_ ≠ .kDisconnected → c.channel_.isWriting = false → c.outputBuffer_.readableBytes = 0

theorem sendInLoop_failsOnly (c : Conn) (send : Send) (result : WriteResult)
    (hsend : ¬c.SendAsserts → P .sendInLoop) (hupdate : P .updateChannel) : FailsOnly P c (c.sendInLoop send result) := by
  have hrecord : FailsOnly P c { c with executed := c.executed ++ [send] } := .of_eq rfl
  refine hrecord.trans ?_
  unfold sendInLoop
  dsimp only
  split
  · exact .of_eq rfl
  · rename_i hlive
    have hdirect : FailsOnly P { c with executed := c.executed ++ [send] }
        (writeDirectly { c with executed := c.executed ++ [send] } send.data result).1 := by
      unfold writeDirectly
      split
      · exact .of_eq rfl
      · rename_i hidle
        have hcheck : FailsOnly P { c with executed := c.executed ++ [send] }
            (check { c with executed := c.executed ++ [send] } .sendInLoop (c.outputBuffer_.readableBytes = 0)) :=
          check_failsOnly _
            (fun hnot => hsend (fun hasserts => hnot (hasserts hlive (Bool.eq_false_of_not_eq_true hidle))))
        cases result with
        | failed errno => exact hcheck
        | accepted n =>
          dsimp only
          split <;> exact hcheck
    refine hdirect.trans ?_
    unfold bufferRest
    split
    · refine FailsOnly.trans (.of_eq ?_) (interest_failsOnly _ _ hupdate)
      split <;> rfl
    · exact .of_eq rfl

theorem sendChars_failsOnly (c : Conn) (data : List UInt8) (result : WriteResult)
    (hsend : ¬c.SendAsserts → P .sendInLoop) (hupdate : P .updateChannel) : FailsOnly P c (c.sendChars data result) := by
  unfold sendChars
  split
  · exact .of_eq rfl
  · exact sendInLoop_failsOnly (c.observe _) _ result hsend hupdate

theorem outputDrained_failsOnly (c : Conn) (hupdate : P .updateChannel) : FailsOnly P c c.outputDrained := by
  have hdisable : FailsOnly P c c.disableWrite := interest_failsOnly c .disableWrite hupdate
  refine hdisable.trans ?_
  unfold outputDrained
  dsimp only
  split
  · split
    · exact shutdownInLoop_failsOnly c.disableWrite
    · exact shutdownInLoop_failsOnly c.disableWrite
  · split <;> exact .of_eq rfl

theorem handleWrite_failsOnly (c : Conn) (result : WriteResult)
    (hreadable : c.state_ ≠ .kDisconnected → c.outputBuffer_.readableBytes = 0 → P .handleWriteReadable)
    (hwriting : c.state_ ≠ .kDisconnected → c.channel_.isWriting = false → P .handleWriteWriting)
    (hupdate : P .updateChannel) : FailsOnly P c (c.handleWrite result) := by
  unfold handleWrite
  split
  · exact .of_eq rfl
  · rename_i hlive
    have hcheck : FailsOnly P c c.checkOutput :=
      (check_failsOnly c (fun hnot => hreadable hlive (Nat.eq_zero_of_not_pos hnot))).trans
        (check_failsOnly _ (fun hnot => hwriting hlive (Bool.eq_false_of_not_eq_true hnot)))
    cases result with
    | failed errno => exact hcheck
    | accepted n =>
      dsimp only
      split
      · exact FailsOnly.trans (d := c.checkOutput.retrieveAccepted n) hcheck (outputDrained_failsOnly _ hupdate)
      · exact hcheck

theorem callInLoop_failsOnly (c : Conn) (result : WriteResult) (api : Api)
    (hsend : ¬c.SendAsserts → P .sendInLoop) (hshutdown : c.state_ = .kDisconnected → P .shutdown)
    (hupdate : P .updateChannel) :
    FailsOnly P c (c.callInLoop result api) := by
  cases api with
  | send payload =>
    rw [callInLoop, send_eq]
    exact sendChars_failsOnly c payload.data result hsend hupdate
  | shutdown => exact shutdown_failsOnly c hshutdown
  | forceClose => exact forceClose_failsOnly c
  | stopRead => exact stopReadInLoop_failsOnly c hupdate
  | startRead => exact startReadInLoop_failsOnly c hupdate

theorem forceCloseInLoop_failsOnly (c : Conn)
    (h : ¬(c.state_ = .kConnected ∨ c.state_ = .kDisconnecting) → P .handleClose) (hupdate : P .updateChannel) :
    FailsOnly P c c.forceCloseInLoop := by
  unfold forceCloseInLoop
  split
  · exact handleClose_failsOnly c h hupdate
  · exact .of_eq rfl

theorem runTask_failsOnly (c : Conn) (result : WriteResult) (task : Task)
    (hsend : ¬c.SendAsserts → P .sendInLoop)
    (hclose : ¬(c.state_ = .kConnected ∨ c.state_ = .kDisconnecting) → P .handleClose)
    (hupdate : P .updateChannel) : FailsOnly P c (c.runTask result task) := by
  cases task with
  | sendInLoop send => exact sendInLoop_failsOnly c send result hsend hupdate
  | shutdownInLoop => exact shutdownInLoop_failsOnly c
  | forceCloseInLoop => exact forceCloseInLoop_failsOnly c hclose hupdate
  | stopRead => exact stopReadInLoop_failsOnly c hupdate
  | startRead => exact startReadInLoop_failsOnly c hupdate
  | writeComplete => exact .of_eq rfl
  | highWaterMark len => exact .of_eq rfl
  | other => exact .of_eq rfl

/-- The assertions a callback of the dispatch may fail, each under the condition that the callback runs. -/
theorem runStage_failsOnly (c : Conn) (read : Buffer.ReadvResult) (write : WriteResult) {stage : Stage}
    (hclose : stage = .onClose → ¬(c.state_ = .kConnected ∨ c.state_ = .kDisconnecting) → P .handleClose)
    (hread : stage = .onRead → Mask.has c.channel_.revents_ (EPOLLIN ||| EPOLLPRI ||| EPOLLRDHUP) = true →
      (c.state_ = .kDisconnected → P .handleRead) ∧
        (¬(c.state_ = .kConnected ∨ c.state_ = .kDisconnecting) → P .handleClose))
    (hwrite : stage = .onWrite → Mask.has c.channel_.revents_ EPOLLOUT = true → c.state_ ≠ .kDisconnected →
      (c.outputBuffer_.readableBytes = 0 → P .handleWriteReadable) ∧
        (c.channel_.isWriting = false → P .handleWriteWriting))
    (hupdate : P .updateChannel) : FailsOnly P c (c.runStage read write stage) := by
  cases stage with
  | onClose =>
    simp only [runStage]
    split
    · exact handleClose_failsOnly c (hclose rfl) hupdate
    · exact .of_eq rfl
  | onError =>
    simp only [runStage]
    split <;> exact .of_eq rfl
  | onRead =>
    simp only [runStage]
    split
    · rename_i hbits
      exact handleRead_failsOnly c read (hread rfl hbits).1 (hread rfl hbits).2 hupdate
    · exact .of_eq rfl
  | onWrite =>
    simp only [runStage]
    split
    · rename_i hout
      exact handleWrite_failsOnly c write (fun hlive => (hwrite rfl hout hlive).1)
        (fun hlive => (hwrite rfl hout hlive).2) hupdate
    · exact .of_eq rfl

end mudong.ev.Conn
