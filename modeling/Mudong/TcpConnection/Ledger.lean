import Mudong.TcpConnection.Effects
import Mudong.TcpConnection.Moves

namespace mudong.ev

namespace Conn

theorem handleClose_sendFrame (c : Conn) : SendFrame [] c c.handleClose := .of_same rfl

theorem handleRead_sendFrame (c : Conn) (result : Buffer.ReadvResult) : SendFrame [] c (c.handleRead result) := by
  have hread : SendFrame [] c (c.readInput result) := .of_same rfl
  unfold handleRead
  dsimp only
  split
  · exact hread.trans (.of_same rfl)
  · split
    · exact hread.trans (handleClose_sendFrame _)
    · exact hread.trans (.of_same rfl)

theorem runStage_sendFrame (c : Conn) (read : Buffer.ReadvResult) (write : WriteResult) (stage : Stage) :
    SendFrame [] c (c.runStage read write stage) := by
  cases stage with
  | onClose =>
    simp only [runStage]
    split
    · exact handleClose_sendFrame c
    · exact .of_same rfl
  | onError =>
    simp only [runStage]
    split <;> exact .of_same rfl
  | onRead =>
    simp only [runStage]
    split
    · exact handleRead_sendFrame c read
    · exact .of_same rfl
  | onWrite =>
    simp only [runStage]
    split
    · exact (handleWrite_frame c write).toSendFrame
    · exact .of_same rfl

theorem runTask_sendFrame (c : Conn) (result : WriteResult) (task : Task) :
    SendFrame (World.completes task) c (c.runTask result task) := by
  cases task with
  | sendInLoop send => exact (sendInLoop_frame c send result).toSendFrame
  | shutdownInLoop => exact (shutdownInLoop_frame c).toSendFrame
  | forceCloseInLoop =>
    simp only [runTask, forceCloseInLoop]
    split
    · exact handleClose_sendFrame c
    · exact .of_same rfl
  | stopRead => exact (stopReadInLoop_frame c).toSendFrame
  | startRead => exact (startReadInLoop_frame c).toSendFrame
  | writeComplete => exact .of_same rfl
  | highWaterMark len => exact .of_same rfl
  | other => exact .of_same rfl

/-- Apart from `send`, the operations called in the loop thread leave the sends alone. -/
theorem callInLoop_sendFrame (c : Conn) (result : WriteResult) {api : Api} (hapi : ∀ payload, api ≠ .send payload) :
    SendFrame [] c (c.callInLoop result api) := by
  cases api with
  | send payload => exact (hapi payload rfl).elim
  | shutdown =>
    have hexchange : SendFrame [] c
        (((c.check .shutdown (c.state_ ≠ .kDisconnected)).follow .loop).stateAtomicGetAndSet .kDisconnecting).2 :=
      .of_same rfl
    simp only [callInLoop, shutdown]
    split
    · exact hexchange.trans (shutdownInLoop_frame _).toSendFrame
    · exact hexchange
  | forceClose =>
    have hexchange : SendFrame [] c (c.stateAtomicGetAndSet .kDisconnecting).2 := .of_same rfl
    simp only [callInLoop, forceClose]
    split
    · split
      · exact hexchange.trans (queueInLoop_frame _ rfl).toSendFrame
      · exact hexchange
    · exact .of_same rfl
  | stopRead => exact (stopReadInLoop_frame c).toSendFrame
  | startRead => exact (startReadInLoop_frame c).toSendFrame

end Conn

/-- The send a thread has in hand, and the same once it has been pushed. -/
def Call.inHand : Call → List Send
  | .push task => World.completes task
  | .wakeup task => World.completes task
  | _ => []

def Call.pushed : Call → List Send
  | .wakeup task => World.completes task
  | _ => []

theorem Call.pushed_eq_nil {call : Call} (h : call.inHand = []) : call.pushed = [] := by
  cases call with
  | wakeup task => exact h
  | _ => rfl

namespace World

/-- What `f` gives for the call a thread is in. The loop thread is in none. -/
def inCall (f : Call → List Send) (calls : Nat → Call) : Thread → List Send
  | .loop => []
  | .other thread => f (calls thread)

@[simp] theorem inCall_update (f : Call → List Send) (calls : Nat → Call) (thread : Nat) (call : Call) (t : Thread) :
    inCall f (Function.update calls thread call) t = if t = .other thread then f call else inCall f calls t := by
  cases t with
  | loop => rfl
  | other thread' =>
    by_cases heq : thread' = thread
    · simp [inCall, heq]
    · simp [inCall, heq]

/-- The sends whose task has been pushed and not yet executed, in queue order. -/
def queued (w : World) : List Send := sendsIn w.tasks ++ sendsIn w.pendingTasks_

def ofThread (thread : Thread) (sends : List Send) : List Send := sends.filter (·.thread = thread)

@[simp] theorem ofThread_append (thread : Thread) (sends sends' : List Send) :
    ofThread thread (sends ++ sends') = ofThread thread sends ++ ofThread thread sends' := List.filter_append _ _

/-- The sends of one thread among sends of one thread. -/
theorem ofThread_of_forall {thread t : Thread} {sends : List Send} (h : ∀ send ∈ sends, send.thread = thread) :
    ofThread t sends = if t = thread then sends else [] := by
  split
  · rename_i heq
    refine List.filter_eq_self.mpr fun send hsend => ?_
    simp [h send hsend, heq]
  · rename_i hne
    refine List.filter_eq_nil_iff.mpr fun send hsend => ?_
    simp [h send hsend, Ne.symm hne]

/-- The bookkeeping of the sends. The observed sends are numbered; of each thread, those that have returned
and the one in hand are its observed ones, and those that have returned or been pushed are exactly the
executed and the queued ones, all in the order of the thread. -/
structure Ledger (w : World) : Prop where
  idle : w.phase ≠ .running → w.tasks = []
  serials : w.observed.map Send.serial = List.range w.observed.length
  observed : ∀ t, ofThread t w.observed = ofThread t w.completed ++ inCall Call.inHand w.calls t
  pushed : ∀ t, ofThread t (w.executed ++ w.queued) = ofThread t w.completed ++ inCall Call.pushed w.calls t
  remote : ofThread .loop w.queued = []

/-- The send in hand is one of its own thread. -/
theorem Ledger.thread_of_inHand {w : World} (hinv : w.Ledger) {thread : Nat} {send : Send}
    (hsend : send ∈ (w.calls thread).inHand) : send.thread = .other thread := by
  have hmem : send ∈ ofThread (.other thread) w.observed := by
    rw [hinv.observed]
    exact List.mem_append_right _ hsend
  simpa using (List.mem_filter.mp hmem).2

/-- A step that neither starts, pushes, executes nor finishes a send. -/
private theorem Ledger.keep {w w' : World} (hinv : w.Ledger) (hframe : Conn.SendFrame [] w.toConn w'.toConn)
    (htasks : w'.tasks = w.tasks) (hidle : w'.phase ≠ .running → w'.tasks = []) (hcalls : w'.calls = w.calls) :
    w'.Ledger := by
  have hqueued : w'.queued = w.queued := by
    unfold queued
    rw [htasks, hframe.queued]
  refine ⟨hidle, ?_, ?_, ?_, ?_⟩
  · rw [hframe.observed]
    exact hinv.serials
  · intro t
    rw [hframe.observed, hframe.completed, hcalls]
    exact hinv.observed t
  · intro t
    rw [hqueued, hframe.executed, hframe.completed, hcalls, List.append_nil]
    exact hinv.pushed t
  · rw [hqueued]
    exact hinv.remote

/-- A thread that has no send in hand goes on with a call that has none either. -/
private theorem Ledger.setCall {w : World} (hinv : w.Ledger) {thread : Nat} {call : Call}
    (hold : (w.calls thread).inHand = []) (hnew : call.inHand = []) : (w.setCall thread call).Ledger := by
  refine ⟨hinv.idle, hinv.serials, ?_, ?_, hinv.remote⟩
  · intro t
    refine (hinv.observed t).trans ?_
    simp only [World.setCall, inCall_update]
    split
    · rename_i heq
      rw [heq, hnew, inCall, hold]
    · rfl
  · intro t
    refine (hinv.pushed t).trans ?_
    simp only [World.setCall, inCall_update]
    split
    · rename_i heq
      rw [heq, Call.pushed_eq_nil hnew, inCall, Call.pushed_eq_nil hold]
    · rfl

private theorem serials_append {observed : List Send}
    (h : observed.map Send.serial = List.range observed.length) (thread : Thread) (data : List UInt8) :
    (observed ++ [(⟨thread, observed.length, data⟩ : Send)]).map Send.serial =
      List.range (observed ++ [(⟨thread, observed.length, data⟩ : Send)]).length := by
  rw [List.map_append, h, List.length_append, List.length_singleton, List.range_succ]
  rfl

/-- A `send` in the loop thread is observed, executed and completed at once. It comes after the other sends
of the loop thread, none of which is ever queued. -/
private theorem Ledger.sendChars {w : World} (hinv : w.Ledger) (data : List UInt8) (result : WriteResult) :
    Ledger { w with toConn := w.sendChars data result } := by
  unfold Conn.sendChars
  split
  · exact hinv
  · have hframe := Conn.sendInLoop_frame (w.observe ⟨.loop, w.observed.length, data⟩)
      ⟨.loop, w.observed.length, data⟩ result
    refine ⟨hinv.idle, ?_, ?_, ?_, ?_⟩
    · dsimp only [Conn.complete]
      rw [hframe.observed]
      exact serials_append hinv.serials .loop data
    · intro t
      dsimp only [Conn.complete]
      rw [hframe.observed, hframe.completed]
      dsimp only [Conn.observe]
      rw [ofThread_append, ofThread_append, hinv.observed]
      cases t with
      | loop => simp [inCall]
      | other thread => simp [ofThread]
    · intro t
      dsimp only [Conn.complete, queued]
      rw [hframe.executed, hframe.completed, hframe.queued]
      dsimp only [Conn.observe]
      have hpushed := hinv.pushed t
      have hremote := hinv.remote
      simp only [queued, ofThread_append] at hpushed hremote ⊢
      cases t with
      | loop =>
        rw [hremote, List.append_nil] at hpushed
        rw [hremote, List.append_nil, hpushed, inCall, List.append_nil, List.append_nil]
      | other thread => simpa [ofThread] using hpushed
    · dsimp only [Conn.complete, queued]
      rw [hframe.queued]
      exact hinv.remote

theorem Ledger.step {w w' : World} {l : Label} (hinv : w.Ledger) (hstep : w.step l = some w') : w'.Ledger := by
  have hidle (hphase : w.phase ≠ .running) {phase : Phase} (_ : phase ≠ .running) : w.tasks = [] := hinv.idle hphase
  cases step_moves hstep with
  | pollOther hphase => exact hinv.keep (.of_same rfl) rfl (hidle (by simp [hphase])) rfl
  | poll hphase hreport => exact hinv.keep (.of_same rfl) rfl (hidle (by simp [hphase])) rfl
  | dispatch hphase hfits =>
    exact hinv.keep (Conn.runStage_sendFrame w.toConn _ _ _) rfl (hidle (by simp [hphase])) rfl
  | swap hphase =>
    have hempty := hinv.idle (by simp [hphase])
    refine ⟨fun h => (h rfl).elim, hinv.serials, hinv.observed, ?_, ?_⟩
    · intro t
      simpa [queued, hempty] using hinv.pushed t
    · simpa [queued, hempty] using hinv.remote
  | task hphase htasks hfits =>
    rename_i write task rest
    have hframe := Conn.runTask_sendFrame w.toConn write task
    refine ⟨fun h => (h hphase).elim, ?_, ?_, ?_, ?_⟩
    · dsimp only
      rw [hframe.observed]
      exact hinv.serials
    · intro t
      dsimp only
      rw [hframe.observed, hframe.completed]
      exact hinv.observed t
    · intro t
      have hpushed := hinv.pushed t
      dsimp only [queued] at hpushed ⊢
      rw [hframe.executed, hframe.completed, hframe.queued]
      rw [htasks, sendsIn_cons] at hpushed
      simpa only [List.append_assoc] using hpushed
    · have hremote := hinv.remote
      dsimp only [queued] at hremote ⊢
      rw [htasks, sendsIn_cons, List.append_assoc, ofThread_append, List.append_eq_nil_iff] at hremote
      rw [hframe.queued]
      exact hremote.2
  | endTasks hphase htasks => exact hinv.keep (.of_same rfl) rfl (fun _ => htasks) rfl
  | call hphase hfits =>
    rename_i api write
    by_cases hsend : ∃ payload, api = .send payload
    · obtain ⟨payload, rfl⟩ := hsend
      rw [Conn.callInLoop, Conn.send_eq]
      exact hinv.sendChars payload.data write
    · exact hinv.keep (Conn.callInLoop_sendFrame w.toConn write (fun payload h => hsend ⟨payload, h⟩)) rfl hinv.idle rfl
  | useInput hphase => exact hinv.keep (.of_same rfl) rfl hinv.idle rfl
  | setWriteCompleteCallback hphase => exact hinv.keep (.of_same rfl) rfl hinv.idle rfl
  | setHighWaterMarkCallback hphase => exact hinv.keep (.of_same rfl) rfl hinv.idle rfl
  | giveUpSend hidle hstate => exact hinv
  | startSend hidle hstate =>
    rename_i thread payload
    have hnone : inCall Call.inHand w.calls (.other thread) = [] := by rw [inCall, hidle]; rfl
    have hnone' : inCall Call.pushed w.calls (.other thread) = [] := by rw [inCall, hidle]; rfl
    refine ⟨hinv.idle, serials_append hinv.serials (.other thread) payload.data, ?_, ?_, hinv.remote⟩
    · intro t
      dsimp only [World.setCall, Conn.observe]
      rw [ofThread_append, hinv.observed, inCall_update]
      split
      · rename_i heq
        rw [heq, hnone]
        simp [ofThread, Call.inHand, completes]
      · rename_i hne
        simp [ofThread, Ne.symm hne]
    · intro t
      refine (hinv.pushed t).trans ?_
      dsimp only [World.setCall, Conn.observe]
      rw [inCall_update]
      split
      · rename_i heq
        rw [heq, hnone']
        rfl
      · rfl
  | startShutdown hidle =>
    rename_i thread
    have hmarked : Ledger { w with
        toConn := (w.check .shutdown (w.state_ ≠ .kDisconnected)).follow (.other thread) } :=
      hinv.keep (.of_same rfl) rfl hinv.idle rfl
    exact hmarked.setCall (by rw [hidle]; rfl) rfl
  | startForceClose hidle hstate => exact hinv.setCall (by rw [hidle]; rfl) rfl
  | giveUpForceClose hidle hstate => exact hinv
  | startStopRead hidle => exact hinv.setCall (by rw [hidle]; rfl) rfl
  | startStartRead hidle => exact hinv.setCall (by rw [hidle]; rfl) rfl
  | exchangeShutdown hcall =>
    have hexchanged : Ledger { w with state_ := .kDisconnecting } := hinv.keep (.of_same rfl) rfl hinv.idle rfl
    refine hexchanged.setCall (by rw [hcall]; rfl) ?_
    split <;> rfl
  | exchangeForceClose hcall =>
    have hexchanged : Ledger { w with state_ := .kDisconnecting } := hinv.keep (.of_same rfl) rfl hinv.idle rfl
    refine hexchanged.setCall (by rw [hcall]; rfl) ?_
    split <;> rfl
  | push hcall =>
    rename_i thread task
    have hthread : ∀ send ∈ completes task, send.thread = .other thread := by
      intro send hsend
      exact hinv.thread_of_inHand (by rw [hcall]; exact hsend)
    refine ⟨hinv.idle, hinv.serials, ?_, ?_, ?_⟩
    · intro t
      refine (hinv.observed t).trans ?_
      dsimp only [World.setCall]
      rw [inCall_update]
      split
      · rename_i heq
        rw [heq, inCall, hcall]
        rfl
      · rfl
    · intro t
      have hpushed := hinv.pushed t
      simp only [World.setCall, queued, EventLoop.push, sendsIn_append, sendsIn_cons, sendsIn_nil,
        List.append_nil, ofThread_append, inCall_update, ofThread_of_forall hthread] at hpushed ⊢
      by_cases heq : t = .other thread
      · subst heq
        simp only [inCall, hcall, Call.pushed, List.append_nil, if_true] at hpushed ⊢
        rw [← hpushed, List.append_assoc, List.append_assoc]
      · simpa only [heq, if_false, List.append_nil] using hpushed
    · have hremote := hinv.remote
      simp only [World.setCall, queued, EventLoop.push, sendsIn_append, sendsIn_cons, sendsIn_nil,
        List.append_nil, ofThread_append, ofThread_of_forall hthread] at hremote ⊢
      simpa using hremote
  | wakeup hcall =>
    rename_i thread task
    have hthread : ∀ send ∈ completes task, send.thread = .other thread := by
      intro send hsend
      exact hinv.thread_of_inHand (by rw [hcall]; exact hsend)
    refine ⟨hinv.idle, hinv.serials, ?_, ?_, hinv.remote⟩
    · intro t
      refine (hinv.observed t).trans ?_
      simp only [World.setCall, ofThread_append, inCall_update, ofThread_of_forall hthread]
      by_cases heq : t = .other thread
      · subst heq
        simp [inCall, hcall, Call.inHand]
      · simp [heq]
    · intro t
      refine (hinv.pushed t).trans ?_
      simp only [World.setCall, ofThread_append, inCall_update, ofThread_of_forall hthread]
      by_cases heq : t = .other thread
      · subst heq
        simp [inCall, hcall, Call.pushed]
      · simp [heq]
  | pushOther =>
    refine hinv.keep ⟨rfl, rfl, (List.append_nil _).symm, ?_⟩ rfl hinv.idle rfl
    simp [EventLoop.push, completes]

end World
end mudong.ev
