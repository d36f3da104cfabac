import Mudong.TcpConnection.World

namespace mudong.ev

/-- The tasks that call back the user about the output. -/
def Task.isNotice : Task → Bool
  | .writeComplete => true
  | .highWaterMark _ => true
  | _ => false

namespace Conn

variable {R : Conn → Conn → Prop}

/-- A relation between a connection before and after that each of the single changes made by output keeps. What the
functions do is made of these, so that it holds across the functions. -/
structure OutputRule (R : Conn → Conn → Prop) : Prop where
  refl : ∀ c, R c c
  trans : ∀ {c d e}, R c d → R d e → R c e
  record : ∀ (c : Conn) outputBuffer_ accepted halfCloses failures,
    R c { c with outputBuffer_, accepted, halfCloses, failures }
  enableWrite : ∀ c : Conn, R c c.enableWrite
  disableWrite : ∀ c : Conn, R c c.disableWrite
  notice : ∀ (c : Conn) {task : Task}, task.isNotice = true → R c (c.queueInLoop task)

theorem OutputRule.shutdownInLoop (h : OutputRule R) (c : Conn) : R c c.shutdownInLoop := by
  unfold Conn.shutdownInLoop
  split
  · exact h.record c ..
  · exact h.refl c

theorem OutputRule.writeDirectly (h : OutputRule R) (c : Conn) (data : List UInt8) (result : WriteResult) :
    R c (c.writeDirectly data result).1 := by
  unfold Conn.writeDirectly
  split
  · exact h.refl c
  · cases result with
    | failed errno => exact h.record c ..
    | accepted n =>
      dsimp only
      split
      · exact h.trans (h.record c ..) (h.notice _ rfl)
      · exact h.record c ..

theorem OutputRule.bufferRest (h : OutputRule R) (c : Conn) (data : List UInt8) (n remain : Nat) (faultError : Bool) :
    R c (c.bufferRest data n remain faultError) := by
  unfold Conn.bufferRest
  split
  · refine h.trans ?_ (h.enableWrite _)
    refine h.trans ?_ (h.record _ ..)
    split
    · exact h.notice c rfl
    · exact h.refl c
  · exact h.refl c

/-- The record of what has been executed changes as well. -/
theorem OutputRule.sendInLoop (h : OutputRule R) (c : Conn) (send : Send) (result : WriteResult) :
    R { c with executed := c.executed ++ [send] } (c.sendInLoop send result) := by
  unfold Conn.sendInLoop
  dsimp only
  split
  · exact h.refl _
  · exact h.trans (h.writeDirectly _ _ _) (h.bufferRest _ _ _ _ _)

theorem OutputRule.outputDrained (h : OutputRule R) (c : Conn) : R c c.outputDrained := by
  have hshut : R c
      (if c.disableWrite.state_ = .kDisconnecting then c.disableWrite.shutdownInLoop else c.disableWrite) := by
    refine h.trans (h.disableWrite c) ?_
    split
    · exact h.shutdownInLoop _
    · exact h.refl _
  refine h.trans hshut ?_
  unfold Conn.outputDrained
  dsimp only
  generalize (if c.disableWrite.state_ = .kDisconnecting then c.disableWrite.shutdownInLoop
    else c.disableWrite) = d
  split
  · exact h.notice d rfl
  · exact h.refl d

theorem OutputRule.handleWrite (h : OutputRule R) (c : Conn) (result : WriteResult) : R c (c.handleWrite result) := by
  unfold Conn.handleWrite
  split
  · exact h.refl c
  · cases result with
    | failed errno => exact h.record c ..
    | accepted n =>
      have hmoved : R c (c.checkOutput.retrieveAccepted n) := h.record c ..
      dsimp only
      split
      · exact h.trans hmoved (h.outputDrained _)
      · exact hmoved

/-- A relation that is kept by what the loop thread does, but for the reading and its start. -/
structure LoopRule (R : Conn → Conn → Prop) : Prop extends OutputRule R where
  history : ∀ (c : Conn) state_ executed observed completed followed closes failures,
    R c { c with state_, executed, observed, completed, followed, closes, failures }
  disableRead : ∀ c : Conn, R c c.disableRead
  disableAll : ∀ c : Conn, R c c.disableAll
  forceCloses : ∀ c : Conn, R c (c.queueInLoop .forceCloseInLoop)

theorem LoopRule.handleClose (h : LoopRule R) (c : Conn) : R c c.handleClose := by
  have hchecked : R c { c.check .handleClose (c.state_ = .kConnected ∨ c.state_ = .kDisconnecting) with
      state_ := .kDisconnected } := h.history c ..
  exact h.trans hchecked (h.trans (h.disableAll _) (h.history _ ..))

theorem LoopRule.forceCloseInLoop (h : LoopRule R) (c : Conn) : R c c.forceCloseInLoop := by
  unfold Conn.forceCloseInLoop
  split
  · exact h.handleClose c
  · exact h.refl c

theorem LoopRule.stopReadInLoop (h : LoopRule R) (c : Conn) : R c c.stopReadInLoop := by
  unfold Conn.stopReadInLoop
  split
  · exact h.disableRead c
  · exact h.refl c

theorem LoopRule.executes (h : LoopRule R) (c : Conn) (send : Send) (result : WriteResult) :
    R c (c.sendInLoop send result) :=
  h.trans (h.history c ..) (h.sendInLoop c send result)

theorem LoopRule.sendChars (h : LoopRule R) (c : Conn) (data : List UInt8) (result : WriteResult) :
    R c (c.sendChars data result) := by
  unfold Conn.sendChars
  split
  · exact h.refl c
  · exact h.trans (h.history c ..) (h.trans (h.executes _ _ result) (h.history _ ..))

theorem LoopRule.shutdown (h : LoopRule R) (c : Conn) : R c c.shutdown := by
  unfold Conn.shutdown
  dsimp only
  split
  · exact h.trans (h.history c ..) (h.shutdownInLoop _)
  · exact h.history c ..

theorem LoopRule.forceClose (h : LoopRule R) (c : Conn) : R c c.forceClose := by
  unfold Conn.forceClose
  split
  · dsimp only
    split
    · exact h.trans (h.history c ..) (h.forceCloses _)
    · exact h.history c ..
  · exact h.refl c

theorem LoopRule.callInLoop (h : LoopRule R) (c : Conn) (result : WriteResult) {api : Api}
    (hstart : api = .startRead → R c c.startReadInLoop) : R c (c.callInLoop result api) := by
  cases api with
  | send payload =>
    rw [Conn.callInLoop, send_eq]
    exact h.sendChars c payload.data result
  | shutdown => exact h.shutdown c
  | forceClose => exact h.forceClose c
  | stopRead => exact h.stopReadInLoop c
  | startRead => exact hstart rfl

theorem LoopRule.runTask (h : LoopRule R) (c : Conn) (result : WriteResult) {task : Task}
    (hstart : task = .startRead → R c c.startReadInLoop) : R c (c.runTask result task) := by
  cases task with
  | sendInLoop send => exact h.executes c send result
  | shutdownInLoop => exact h.shutdownInLoop c
  | forceCloseInLoop => exact h.forceCloseInLoop c
  | stopRead => exact h.stopReadInLoop c
  | startRead => exact hstart rfl
  | writeComplete => exact h.refl c
  | highWaterMark len => exact h.refl c
  | other => exact h.refl c

theorem LoopRule.runStage (h : LoopRule R) (c : Conn) (read : Buffer.ReadvResult) (write : WriteResult) {stage : Stage}
    (hread : stage = .onRead → Mask.has c.channel_.revents_ (EPOLLIN ||| EPOLLPRI ||| EPOLLRDHUP) = true →
      R c (c.handleRead read)) : R c (c.runStage read write stage) := by
  cases stage with
  | onClose =>
    simp only [Conn.runStage]
    split
    · exact h.handleClose c
    · exact h.refl c
  | onError =>
    simp only [Conn.runStage]
    split <;> exact h.refl c
  | onRead =>
    simp only [Conn.runStage]
    split
    · exact hread rfl ‹_›
    · exact h.refl c
  | onWrite =>
    simp only [Conn.runStage]
    split
    · exact h.handleWrite c write
    · exact h.refl c

end Conn

end mudong.ev
