import Mudong.TcpConnection.World

namespace mudong.ev.World

/-- Everything a step can do, with the conditions under which it does it. -/
inductive Moves (w : World) : Label → World → Prop where
  | pollOther (hphase : w.phase = .polling) : Moves w (.poll none) { w with phase := .handling none }
  | poll {revents_ : Events} (hphase : w.phase = .polling) (hreport : Reportable w.entry revents_) :
      Moves w (.poll (some revents_))
        { w with channel_ := { w.channel_ with revents_ }, phase := .handling (some .onClose) }
  | dispatch {read : Buffer.ReadvResult} {write : WriteResult} {stage : Stage}
      (hphase : w.phase = .handling (some stage)) (hfits : write.Fits w.outputBuffer_.readableBytes = true) :
      Moves w (.dispatch read write)
        { w with toConn := w.runStage read write stage, phase := .handling stage.next }
  | swap (hphase : w.phase = .handling none) :
      Moves w .swap
        { w with phase := .running, tasks := w.pendingTasks_, pendingTasks_ := [], doingPendingTasks_ := true }
  | task {write : WriteResult} {task : Task} {rest : List Task} (hphase : w.phase = .running)
      (htasks : w.tasks = task :: rest) (hfits : ∀ send, task = .sendInLoop send → write.Fits send.data.length = true) :
      Moves w (.task write) { w with toConn := w.runTask write task, tasks := rest }
  | endTasks (hphase : w.phase = .running) (htasks : w.tasks = []) :
      Moves w .endTasks { w with phase := .polling, doingPendingTasks_ := false }
  | call {api : Api} {write : WriteResult} (hphase : w.phase ≠ .polling)
      (hfits : ∀ payload, api = .send payload → write.Fits payload.data.length = true) :
      Moves w (.call api write) { w with toConn := w.callInLoop write api }
  | useInput {inputBuffer_ : ValidBuffer} (hphase : w.phase ≠ .polling) :
      Moves w (.useInput inputBuffer_) { w with inputBuffer_ }
  | setWriteCompleteCallback {writeCompleteCallback_ : Bool} (hphase : w.phase ≠ .polling) :
      Moves w (.setWriteCompleteCallback writeCompleteCallback_) { w with writeCompleteCallback_ }
  | setHighWaterMarkCallback {highWaterMarkCallback_ : Bool} {highWaterMark_ : Nat} (hphase : w.phase ≠ .polling) :
      Moves w (.setHighWaterMarkCallback highWaterMarkCallback_ highWaterMark_)
        { w with highWaterMarkCallback_, highWaterMark_ }
  | giveUpSend {thread : Nat} {payload : Payload} (hidle : w.calls thread = .idle)
      (hstate : w.state_ ≠ .kConnected) : Moves w (.start thread (.send payload)) w
  | startSend {thread : Nat} {payload : Payload} (hidle : w.calls thread = .idle)
      (hstate : w.state_ = .kConnected) :
      Moves w (.start thread (.send payload))
        (setCall { w with toConn := w.observe ⟨.other thread, w.observed.length, payload.data⟩ } thread
          (.push (.sendInLoop ⟨.other thread, w.observed.length, payload.data⟩)))
  | startShutdown {thread : Nat} (hidle : w.calls thread = .idle) :
      Moves w (.start thread .shutdown)
        (setCall { w with toConn := (w.check .shutdown (w.state_ ≠ .kDisconnected)).follow (.other thread) }
          thread .shutdownExchange)
  | startForceClose {thread : Nat} (hidle : w.calls thread = .idle) (hstate : w.state_ ≠ .kDisconnected) :
      Moves w (.start thread .forceClose) (w.setCall thread .forceCloseExchange)
  | giveUpForceClose {thread : Nat} (hidle : w.calls thread = .idle) (hstate : w.state_ = .kDisconnected) :
      Moves w (.start thread .forceClose) w
  | startStopRead {thread : Nat} (hidle : w.calls thread = .idle) :
      Moves w (.start thread .stopRead) (w.setCall thread (.push .stopRead))
  | startStartRead {thread : Nat} (hidle : w.calls thread = .idle) :
      Moves w (.start thread .startRead) (w.setCall thread (.push .startRead))
  | exchangeShutdown {thread : Nat} (hcall : w.calls thread = .shutdownExchange) :
      Moves w (.advance thread)
        (setCall { w with state_ := .kDisconnecting } thread
          (if w.state_ = .kConnected then .push .shutdownInLoop else .idle))
  | exchangeForceClose {thread : Nat} (hcall : w.calls thread = .forceCloseExchange) :
      Moves w (.advance thread)
        (setCall { w with state_ := .kDisconnecting } thread
          (if w.state_ ≠ .kDisconnected then .push .forceCloseInLoop else .idle))
  | push {thread : Nat} {task : Task} (hcall : w.calls thread = .push task) :
      Moves w (.advance thread) (setCall { w with toEventLoop := w.push task } thread (.wakeup task))
  | wakeup {thread : Nat} {task : Task} (hcall : w.calls thread = .wakeup task) :
      Moves w (.advance thread)
        (setCall { w with toEventLoop := w.wakeup, completed := w.completed ++ completes task } thread .idle)
  | pushOther : Moves w .pushOther { w with toEventLoop := w.push .other }

theorem step_moves {w w' : World} {l : Label} (hstep : w.step l = some w') : Moves w l w' := by
  cases l with
  | poll revents =>
    cases revents with
    | none =>
      simp only [step, Option.ite_none_right_eq_some, Option.some.injEq] at hstep
      obtain ⟨hphase, rfl⟩ := hstep
      exact .pollOther hphase
    | some revents_ =>
      simp only [step, Option.ite_none_right_eq_some, Option.some.injEq] at hstep
      obtain ⟨⟨hphase, hreport⟩, rfl⟩ := hstep
      exact .poll hphase hreport
  | dispatch read write =>
    simp only [step] at hstep
    split at hstep
    · rename_i stage hphase
      simp only [Option.ite_none_right_eq_some, Option.some.injEq] at hstep
      obtain ⟨hfits, rfl⟩ := hstep
      exact .dispatch hphase hfits
    · cases hstep
  | swap =>
    simp only [step, Option.ite_none_right_eq_some, Option.some.injEq] at hstep
    obtain ⟨hphase, rfl⟩ := hstep
    exact .swap hphase
  | task write =>
    simp only [step] at hstep
    split at hstep
    · rename_i task rest hphase htasks
      simp only [Option.ite_none_right_eq_some, Option.some.injEq] at hstep
      obtain ⟨hfits, rfl⟩ := hstep
      refine .task hphase htasks ?_
      intro send hsend
      simpa [writeLength, htasks, hsend] using hfits
    · cases hstep
  | endTasks =>
    simp only [step, Option.ite_none_right_eq_some, Option.some.injEq] at hstep
    obtain ⟨⟨hphase, htasks⟩, rfl⟩ := hstep
    exact .endTasks hphase htasks
  | call api write =>
    simp only [step, Option.ite_none_right_eq_some, Option.some.injEq] at hstep
    obtain ⟨⟨hphase, hfits⟩, rfl⟩ := hstep
    refine .call hphase ?_
    rintro payload rfl
    exact hfits
  | useInput inputBuffer_ =>
    simp only [step, Option.ite_none_right_eq_some, Option.some.injEq] at hstep
    obtain ⟨hphase, rfl⟩ := hstep
    exact .useInput hphase
  | setWriteCompleteCallback writeCompleteCallback_ =>
    simp only [step, Option.ite_none_right_eq_some, Option.some.injEq] at hstep
    obtain ⟨hphase, rfl⟩ := hstep
    exact .setWriteCompleteCallback hphase
  | setHighWaterMarkCallback highWaterMarkCallback_ highWaterMark_ =>
    simp only [step, Option.ite_none_right_eq_some, Option.some.injEq] at hstep
    obtain ⟨hphase, rfl⟩ := hstep
    exact .setHighWaterMarkCallback hphase
  | start thread api =>
    simp only [step, Option.ite_none_right_eq_some, Option.some.injEq] at hstep
    obtain ⟨hidle, rfl⟩ := hstep
    cases api with
    | send payload =>
      by_cases hstate : w.state_ = .kConnected
      · have hmoves : Moves w (.start thread (.send payload)) _ := .startSend hidle hstate
        simpa [startCall, hstate] using hmoves
      · have hmoves : Moves w (.start thread (.send payload)) _ := .giveUpSend hidle hstate
        simpa [startCall, hstate] using hmoves
    | shutdown => exact .startShutdown hidle
    | forceClose =>
      by_cases hstate : w.state_ = .kDisconnected
      · simpa [startCall, hstate] using Moves.giveUpForceClose hidle hstate
      · simpa [startCall, hstate] using Moves.startForceClose hidle hstate
    | stopRead => exact .startStopRead hidle
    | startRead => exact .startStartRead hidle
  | advance thread =>
    simp only [step, advanceCall] at hstep
    split at hstep
    · cases hstep
    · cases hstep
      exact .exchangeShutdown ‹_›
    · cases hstep
      exact .exchangeForceClose ‹_›
    · cases hstep
      exact .push ‹_›
    · cases hstep
      exact .wakeup ‹_›
  | pushOther =>
    cases hstep
    exact .pushOther

end mudong.ev.World
