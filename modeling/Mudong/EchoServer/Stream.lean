import Mudong.EchoServer.Steady

namespace mudong.ev

namespace Conn

theorem ClosesIf.state_of_le {c c' : Conn} {closing : Bool} (h : ClosesIf closing c c')
    (hcloses : c'.closes ≤ c.closes) : c'.state_ = c.state_ := by
  have hmore := h.closes
  have hstate := h.state_
  cases closing with
  | true =>
    rw [if_pos rfl] at hmore
    omega
  | false => exact hstate

theorem ClosesIf.state_of_lt {c c' : Conn} {closing : Bool} (h : ClosesIf closing c c')
    (hcloses : c.closes < c'.closes) : c'.state_ = .kDisconnected := by
  have hmore := h.closes
  have hstate := h.state_
  cases closing with
  | true => exact hstate
  | false =>
    rw [if_neg (by simp)] at hmore
    omega

theorem sendChars_data (c : Conn) (data : List UInt8) (result : WriteResult) :
    (c.sendChars data result).executed.map Send.data =
      c.executed.map Send.data ++ if c.state_ = .kConnected then [data] else [] := by
  by_cases hstate : c.state_ = .kConnected
  · simp [sendChars, hstate, complete, observe, sendInLoop_executed]
  · simp [sendChars, hstate]

end Conn

/-- The writes of the step do not find the peer gone. -/
def EchoLabel.unbroken : EchoLabel → Bool
  | .dispatch _ write header body => !write.Broken && !header.Broken && !body.Broken
  | .task write => !write.Broken
  | _ => true

namespace EchoServer

/-- What has been read has been passed to `send()` behind a greeting, or waits in the input buffer of a connection
that is being closed. -/
structure Echoes (e : EchoServer) : Prop where
  executed : e.executed.map Send.data = e.chunks.flatMap fun chunk => [greeting e.tid, chunk]
  received : e.received = e.chunks.flatten ++ e.inputBuffer_.readable
  emptied : e.state_ = .kConnected → e.inputBuffer_.readable = []

/-- A step that neither reads nor replies. -/
theorem Echoes.move {e e' : EchoServer} (h : e.Echoes)
    (hsame : (e'.tid, e'.received, e'.chunks) = (e.tid, e.received, e.chunks)) (hexecuted : e'.executed = e.executed)
    (hinput : e'.inputBuffer_.readable = e.inputBuffer_.readable)
    (hstate : e'.state_ = .kConnected → e.state_ = .kConnected) : e'.Echoes := by
  simp only [Prod.mk.injEq] at hsame
  obtain ⟨htid, hreceived, hchunks⟩ := hsame
  refine ⟨?_, ?_, fun hconnected => ?_⟩
  · rw [hexecuted, hchunks, htid]
    exact h.executed
  · rw [hreceived, hchunks, hinput]
    exact h.received
  · rw [hinput]
    exact h.emptied (hstate hconnected)

/-- What `onMessage` passes to `send()`, and what it leaves in the input buffer. -/
theorem reply_spec {e : EchoServer} {w v : World} {read : Buffer.ReadvResult} {header body : WriteResult}
    (hv : Run.exec World.step w (e.onMessage w read header body).1 = some v) :
    v.state_ = w.state_ ∧ v.executed.map Send.data = w.executed.map Send.data ++
        (if w.state_ = .kConnected then [greeting e.tid, w.inputBuffer_.readable] else []) ∧
      v.inputBuffer_.readable = if w.state_ = .kConnected then [] else w.inputBuffer_.readable := by
  obtain ⟨w₁, h₁, hv⟩ := Run.exec_cons_eq_some.mp hv
  obtain ⟨w₂, h₂, hv⟩ := Run.exec_cons_eq_some.mp hv
  have hfirst : w₁.toConn = w.sendChars (greeting e.tid) header := by
    cases World.step_moves h₁ with
    | call _ _ => exact Conn.send_eq w.toConn header (.stringView (greeting e.tid))
  have hsecond : w₂.toConn = w₁.sendChars w.inputBuffer_.readable body := by
    cases World.step_moves h₂ with
    | call _ _ => exact Conn.send_eq w₁.toConn body (.buffer w.inputBuffer_)
  have hthird : v = { w₂ with inputBuffer_ := (w.sendBuffer w.inputBuffer_ body).2 } := by
    cases World.step_moves (exec_one hv) with
    | useInput _ => rfl
  have hstate : w₁.state_ = w.state_ := by rw [hfirst, Conn.sendChars_state_]
  subst hthird
  refine ⟨?_, ?_, ?_⟩
  · show w₂.state_ = w.state_
    rw [hsecond, Conn.sendChars_state_, hstate]
  · show w₂.executed.map Send.data = _
    rw [hsecond, Conn.sendChars_data, hfirst, Conn.sendChars_data, ← hfirst, hstate]
    split <;> simp
  · show (w.sendBuffer w.inputBuffer_ body).2.readable = _
    by_cases hconnected : w.state_ = .kConnected
    · rw [if_pos hconnected, Conn.sendBuffer, if_neg (not_not.mpr hconnected)]
      exact Buffer.readable_retrieveAll _
    · rw [if_neg hconnected, Conn.sendBuffer, if_pos hconnected]

theorem Echoes.message {e : EchoServer} (h : e.Echoes) {w v : World} {read : Buffer.ReadvResult}
    {write header body : WriteResult} (hw : e.toWorld.step (.dispatch read write) = some w)
    (hmessage : e.messages < w.messages) (hv : Run.exec World.step w (e.onMessage w read header body).1 = some v) :
    Echoes { (e.onMessage w read header body).2 with toWorld := v } := by
  obtain ⟨hstate, hexecuted, hinput⟩ := reply_spec hv
  obtain ⟨hread, hsame, hwas⟩ : w.inputBuffer_.readable = e.inputBuffer_.readable ++ read.data ∧
      w.executed = e.executed ∧ w.state_ = e.state_ := by
    cases World.step_moves hw with
    | @dispatch _ _ stage _ _ =>
      have hexecuted := (Conn.runStage_sendFrame e.toConn read write stage).executed
      rw [List.append_nil] at hexecuted
      obtain hquiet | ⟨hreads, ⟨_, hcloses⟩ | ⟨hsame, _⟩⟩ := Conn.runStage_input e.toConn read write stage
      · simp [(Prod.mk.inj hquiet).2] at hmessage
      · exact ⟨hreads, hexecuted, (Conn.runStage_closesIf e.toConn read write stage).state_of_le hcloses.le⟩
      · simp [hsame] at hmessage
  have hreceived : e.received ++ read.data = e.chunks.flatten ++ w.inputBuffer_.readable := by
    rw [h.received, hread, List.append_assoc]
  by_cases hconnected : w.state_ = .kConnected
  · simp only [hconnected, if_true] at hexecuted hinput
    refine ⟨?_, ?_, fun _ => hinput⟩
    · show v.executed.map Send.data = _
      rw [hexecuted, hsame, h.executed]
      simp [onMessage, expireAfter, hconnected]
    · simp [onMessage, expireAfter, hconnected, hreceived, hinput]
  · simp only [hconnected, if_false, List.append_nil] at hexecuted hinput
    refine ⟨?_, ?_, fun hup => (hconnected (hstate.symm.trans hup)).elim⟩
    · show v.executed.map Send.data = _
      rw [hexecuted, hsame, h.executed]
      simp [onMessage, expireAfter, hconnected]
    · simp [onMessage, expireAfter, hconnected, hreceived, hinput]

/-- A task that is not a send of another thread. -/
theorem runTask_executed {c : Conn} {write : WriteResult} {task : Task} (hown : task.isOwn = true) :
    (c.runTask write task).executed = c.executed := by
  have hframe := (Conn.runTask_sendFrame c write task).executed
  have hnone : World.completes task = [] := by cases task <;> first | rfl | cases hown
  rw [hnone, List.append_nil] at hframe
  exact hframe

theorem Echoes.step {e e' : EchoServer} {l : EchoLabel} (h : e.Echoes) (hsteady : e.toWorld.Steady)
    (hstep : e.step l = some e') (hopen : e'.closes = 0) : e'.Echoes := by
  have hwas : e.closes = 0 := Nat.le_zero.mp (hopen ▸ World.run_closes_le (step_world hstep))
  cases step_moves hstep with
  | @poll revents w hw =>
    cases World.step_moves hw with
    | pollOther _ => exact h.move rfl rfl rfl (fun h => h)
    | poll _ _ => exact h.move rfl rfl rfl (fun h => h)
  | message hw hmessage hv => exact h.message hw hmessage hv
  | @close _ _ _ _ w _ hcloses =>
    have hnone : w.closes = 0 := hopen
    omega
  | @dispatch read write _ _ w hw hmessage hcloses =>
    have hnone : w.closes = 0 := hopen
    cases World.step_moves hw with
    | @dispatch _ _ stage _ _ =>
      have hexecuted := (Conn.runStage_sendFrame e.toConn read write stage).executed
      rw [List.append_nil] at hexecuted
      have hstate := (Conn.runStage_closesIf e.toConn read write stage).state_of_le hcloses
      refine h.move rfl hexecuted ?_ (fun hup => hstate.symm.trans hup)
      obtain hquiet | ⟨_, ⟨hmore, _⟩ | ⟨_, hmore⟩⟩ := Conn.runStage_input e.toConn read write stage
      · exact congrArg ValidBuffer.readable (Prod.mk.inj hquiet).1
      · have hle : (e.runStage read write stage).messages ≤ e.messages := hmessage
        omega
      · have hzero : (e.runStage read write stage).closes = 0 := hnone
        omega
  | swap hw =>
    cases World.step_moves hw with
    | swap _ => exact h.move rfl rfl rfl (fun h => h)
  | completed _ _ => exact h.move rfl rfl rfl (fun h => h)
  | resume _ _ =>
    have hframe := Conn.startReadInLoop_frame e.toConn
    refine h.move rfl (hframe.executed.trans (List.append_nil _)) ?_ (fun hup => hframe.state_.symm.trans hup)
    exact congrArg ValidBuffer.readable (Prod.mk.inj (Conn.startReadInLoop_input e.toConn)).1
  | stop _ =>
    have hframe := Conn.stopReadInLoop_frame e.toConn
    refine h.move rfl (hframe.executed.trans (List.append_nil _)) ?_ (fun hup => hframe.state_.symm.trans hup)
    exact congrArg ValidBuffer.readable (Prod.mk.inj (Conn.input_rule.stopReadInLoop e.toConn)).1
  | @closeTask write task _ _ _ hcloses =>
    have hnone : (e.runTask write task).closes = 0 := hopen
    omega
  | abort _ _ hagain => exact (hagain hwas).elim
  | abortTask _ _ _ hagain => exact (hagain hwas).elim
  | @task write task _ htasks _ hcloses =>
    have hown := hsteady.tasks task (by simp [htasks])
    have hclosesIf := Conn.runTask_closesIf e.toConn write task
    refine h.move rfl (runTask_executed hown) ?_ (fun hup => (hclosesIf.state_of_le hcloses).symm.trans hup)
    have hinput : ((e.runTask write task).inputBuffer_, (e.runTask write task).messages) =
        (e.inputBuffer_, e.messages) :=
      Conn.input_rule.runTask e.toConn write fun _ => Conn.startReadInLoop_input _
    exact congrArg ValidBuffer.readable (Prod.mk.inj hinput).1
  | endTasks hw =>
    cases World.step_moves hw with
    | endTasks _ _ => exact h.move rfl rfl rfl (fun h => h)
  | tick => exact h.move rfl rfl rfl (fun h => h)
  | expire _ _ =>
    have hframe : Conn.SendFrame [] e.toConn (e.callInLoop (.accepted 0) .forceClose) :=
      Conn.callInLoop_sendFrame e.toConn (.accepted 0) (by simp)
    have hstate : (e.callInLoop (.accepted 0) .forceClose).state_ = e.state_ ∨
        e.state_ ≠ .kDisconnected ∧ (e.callInLoop (.accepted 0) .forceClose).state_ = .kDisconnecting :=
      Conn.callInLoop_state_ (.accepted 0) (by simp)
    refine h.move rfl (hframe.executed.trans (List.append_nil _)) ?_
      (fun (hup : e.forceClose.state_ = .kConnected) => ?_)
    · exact congrArg ValidBuffer.readable (Prod.mk.inj (Conn.input_rule.forceClose e.toConn)).1
    · obtain hsame | ⟨_, hdown⟩ := hstate
      · exact hsame.symm.trans hup
      · exact absurd (hdown.symm.trans hup) (by simp)
  | keep _ => exact h
  | pushOther hw =>
    cases World.step_moves hw with
    | pushOther => exact h.move rfl rfl rfl (fun h => h)

theorem worldLabels_unbroken (e : EchoServer) {l : EchoLabel} (hl : l.unbroken = true) :
    ∀ m ∈ worldLabels e l, m.unbroken = true := by
  refine List.forall_mem_append.mpr ⟨?_, ?_⟩
  · cases l <;> simp_all [begins, Label.unbroken, EchoLabel.unbroken]
  · cases Run.exec World.step e.toWorld (begins l) with
    | none => simp
    | some w =>
      cases l with
      | dispatch read write header body =>
        simp only [EchoLabel.unbroken, Bool.and_eq_true] at hl
        simp only [Option.elim_some, callback]
        split
        · simp [onMessage, Label.unbroken, hl]
        · split <;> simp
      | task write =>
        simp only [Option.elim_some, callback]
        split
        · unfold onWriteComplete
          split <;> simp [Label.unbroken, WriteResult.Broken]
        · simp [onHighWaterMark, Label.unbroken, WriteResult.Broken]
        · split <;> simp
      | timeout =>
        simp only [Option.elim_some, callback, onTimeout]
        split
        · split <;> simp [Label.unbroken, WriteResult.Broken]
        · simp
      | _ => simp [callback]

section

variable {timeout_ : Nanoseconds} {tid others wakeups : Nat} {now : Timestamp} {e : EchoServer} {ls : List EchoLabel}

theorem init_echoes (timeout_ : Nanoseconds) (tid : Nat) (now : Timestamp) (others wakeups : Nat) :
    (init timeout_ tid now others wakeups).Echoes :=
  ⟨rfl, (ValidBuffer.readable_init _).symm, fun _ => ValidBuffer.readable_init _⟩

/-- What the peer gets is what the server has read: the bytes accepted by the kernel and those that wait are the
chunks behind their greetings, in order, with nothing lost, repeated or added; the chunks make up all that was read,
but for what a connection that is being closed has left in its input buffer. -/
theorem echoes_what_was_read (hwrites : ∀ l ∈ ls, l.unbroken = true)
    (hrun : Run.exec step (init timeout_ tid now others wakeups) ls = some e) (hopen : e.closes = 0) :
    e.accepted ++ e.outputBuffer_.readable = (e.chunks.map (greeting e.tid ++ ·)).flatten ∧
      e.received = e.chunks.flatten ++ e.inputBuffer_.readable ∧
      (e.state_ = .kConnected → e.received = e.chunks.flatten) := by
  have hinv : e.toWorld.Steady ∧ (e.closes = 0 → e.Echoes) := by
    refine Run.exec_preserves (I := fun e : EchoServer => e.toWorld.Steady ∧ (e.closes = 0 → e.Echoes)) ?_
      ⟨init_steady timeout_ tid now others wakeups, fun _ => init_echoes timeout_ tid now others wakeups⟩ hrun
    rintro e l e' ⟨hsteady, h⟩ hstep
    refine ⟨steady_step hsteady hstep, fun hopen => ?_⟩
    have hwas : e.closes = 0 := Nat.le_zero.mp (hopen ▸ World.run_closes_le (step_world hstep))
    exact (h hwas).step hsteady hstep hopen
  have hechoes := hinv.2 hopen
  have hwhole : e.toConn.Whole := by
    refine (World.run_whole ?_ (run_world hrun)).2 hopen
    refine List.forall_mem_append.mpr ⟨by simp [Label.unbroken], fun m hm => ?_⟩
    obtain ⟨before, l, after, t, rfl, _, hmem⟩ := Run.mem_trace.mp hm
    exact worldLabels_unbroken t (hwrites l (by simp)) m hmem
  refine ⟨?_, hechoes.received, fun hup => ?_⟩
  · rw [hwhole, hechoes.executed]
    induction e.chunks with
    | nil => rfl
    | cons chunk chunks ih => simpa using ih
  · rw [hechoes.received, hechoes.emptied hup, List.append_nil]

/-- Two messages, the second of which finds the socket full. -/
theorem echoes_what_was_read_twice : ∃ e : EchoServer,
    Run.exec step (init 20 7 0 0 0) [.swap, .endTasks, .poll (some EPOLLIN),
      .dispatch (.failed 0) (.accepted 0) (.accepted 0) (.accepted 0),
      .dispatch (.failed 0) (.accepted 0) (.accepted 0) (.accepted 0),
      .dispatch (.filled [104, 105]) (.accepted 0) (.accepted 24) (.accepted 2),
      .dispatch (.failed 0) (.accepted 0) (.accepted 0) (.accepted 0), .swap, .task (.accepted 0), .task (.accepted 0),
      .endTasks, .poll (some EPOLLIN), .dispatch (.failed 0) (.accepted 0) (.accepted 0) (.accepted 0),
      .dispatch (.failed 0) (.accepted 0) (.accepted 0) (.accepted 0),
      .dispatch (.filled [33]) (.accepted 0) (.accepted 5) (.failed EAGAIN)] = some e ∧
    e.closes = 0 ∧ e.state_ = .kConnected ∧ e.chunks = [[104, 105], [33]] ∧
    e.accepted ++ e.outputBuffer_.readable = greeting 7 ++ [104, 105] ++ (greeting 7 ++ [33]) := by
  apply Run.Reaches.exists_of (p := fun e => e.closes = 0 ∧ e.state_ = .kConnected ∧ e.chunks = [[104, 105], [33]] ∧
    e.tid = 7)
  · decide +kernel
  · rintro e hrun ⟨hopen, hup, hchunks, htid⟩
    have hstream := (echoes_what_was_read (by decide) hrun hopen).1
    rw [hchunks, htid] at hstream
    exact ⟨hopen, hup, hchunks, by simpa using hstream⟩

end

end EchoServer

end mudong.ev
