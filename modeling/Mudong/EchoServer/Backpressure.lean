import Mudong.EchoServer.Steady

namespace mudong.ev

/-- The steps of the loop thread that run no task and do not call `startRead()` or `stopRead()`. -/
def Label.keepsReading : Label → Bool
  | .task _ => false
  | .call .startRead _ => false
  | .call .stopRead _ => false
  | l => l.inLoop

theorem Label.inLoop_of_keepsReading {l : Label} (hl : l.keepsReading = true) : l.inLoop = true := by
  cases l <;> first | rfl | cases hl

theorem Task.isNotice_of_isHighWater {task : Task} (htask : task.isHighWater = true) : task.isNotice = true := by
  cases task <;> first | rfl | cases htask

namespace Conn

theorem interest_isReading {c : Conn} {op : InterestOp} (hop : op = .enableWrite ∨ op = .disableWrite) :
    (c.interest op).channel_.isReading = c.channel_.isReading := by
  rw [Channel.isReading, Channel.isReading, interest_events_]
  obtain rfl | rfl := hop
  · rw [InterestOp.apply, Mask.has_or, show Mask.has EPOLLOUT EPOLLIN = false by decide, Bool.or_false]
  · exact Mask.has_clear_of_disjoint _ (by decide)

theorem reading_rule : OutputRule fun c c' => c'.channel_.isReading = c.channel_.isReading where
  refl _ := rfl
  trans h h' := h'.trans h
  record _ _ _ _ _ := rfl
  enableWrite _ := interest_isReading (Or.inl rfl)
  disableWrite _ := interest_isReading (Or.inr rfl)
  notice _ _ _ := rfl

theorem runStage_isReading {c : Conn} {read : Buffer.ReadvResult} {write : WriteResult} {stage : Stage}
    (hcloses : (c.runStage read write stage).closes = c.closes) :
    (c.runStage read write stage).channel_.isReading = c.channel_.isReading := by
  have hclosing := (runStage_closesIf c read write stage).closes
  have hnot : c.stageCloses read stage = false := by
    by_contra htrue
    rw [Bool.not_eq_false] at htrue
    rw [htrue, if_pos rfl] at hclosing
    omega
  cases stage with
  | onClose =>
    simp only [stageCloses] at hnot
    rw [runStage, if_neg (by rw [hnot]; simp)]
  | onError =>
    simp only [runStage]
    split <;> rfl
  | onRead =>
    simp only [runStage]
    split
    · rename_i hread
      have hn : (c.inputBuffer_.readFd read).2 ≠ 0 := by
        simpa [stageCloses, hread] using hnot
      unfold handleRead
      dsimp only
      split
      · rfl
      · rfl
    · rfl
  | onWrite =>
    simp only [runStage]
    split
    · exact reading_rule.handleWrite c write
    · rfl

theorem callInLoop_isReading (c : Conn) (result : WriteResult) {api : Api} (hstart : api ≠ .startRead)
    (hstop : api ≠ .stopRead) : (c.callInLoop result api).channel_.isReading = c.channel_.isReading := by
  cases api with
  | send payload =>
    rw [callInLoop, send_eq]
    unfold sendChars
    split
    · rfl
    · exact reading_rule.sendInLoop (c.observe _) _ result
  | shutdown =>
    simp only [callInLoop, shutdown]
    split
    · exact reading_rule.shutdownInLoop _
    · rfl
  | forceClose =>
    simp only [callInLoop, forceClose]
    split
    · split <;> rfl
    · rfl
  | stopRead => exact (hstop rfl).elim
  | startRead => exact (hstart rfl).elim

theorem startReadInLoop_isReading (c : Conn) : c.startReadInLoop.channel_.isReading = true := by
  unfold startReadInLoop
  split
  · assumption
  · rw [enableRead, Channel.isReading, interest_events_, InterestOp.apply, Mask.has_or,
      show Mask.has (EPOLLIN ||| EPOLLPRI) EPOLLIN = true by decide, Bool.or_true]

theorem growing_rule : LoopRule fun c c' => c.pendingTasks_ <+: c'.pendingTasks_ where
  refl _ := List.prefix_rfl
  trans := List.IsPrefix.trans
  record _ _ _ _ _ := List.prefix_rfl
  enableWrite _ := List.prefix_rfl
  disableWrite _ := List.prefix_rfl
  notice _ task _ := ⟨[task], (EventLoop.queueInLoop_pendingTasks_ ..).symm⟩
  history _ _ _ _ _ _ _ _ := List.prefix_rfl
  disableRead _ := List.prefix_rfl
  disableAll _ := List.prefix_rfl
  forceCloses _ := ⟨[.forceCloseInLoop], (EventLoop.queueInLoop_pendingTasks_ ..).symm⟩

end Conn

namespace World

/-- The notices about the output that wait to be run. -/
def queuedNotices (w : World) : List Task := (w.tasks ++ w.pendingTasks_).filter Task.isNotice

/-- A connection that does not read, or is about to stop, has a backlog whose end will be announced, or the
announcement waits behind every notice that stops it. -/
def Unwedged (w : World) : Prop :=
  (w.channel_.isReading = false ∨ ∃ task ∈ w.queuedNotices, task.isHighWater = true) →
    0 < w.backlog ∨ w.queuedNotices.getLast? = some .writeComplete

theorem last_notice {w : World} {task : Task} (hlast : w.queuedNotices.getLast? = some task) :
    ∃ before after, w.tasks ++ w.pendingTasks_ = before ++ task :: after ∧ ∀ task ∈ after, task.isNotice = false := by
  rw [queuedNotices, ← List.head?_reverse, ← List.filter_reverse, List.head?_filter,
    List.find?_eq_some_iff_append] at hlast
  obtain ⟨_, after, before, hqueue, hafter⟩ := hlast
  refine ⟨before.reverse, after.reverse, ?_, fun task htask => ?_⟩
  · rw [← List.reverse_reverse (w.tasks ++ w.pendingTasks_), hqueue]
    simp
  · simpa using hafter task (by simpa using htask)

/-- A step that queues the notices for its change of the backlog behind those that wait. -/
theorem Unwedged.extend {w w' : World} {l : Label} (h : w.Unwedged) (hwatched : w.Watched 1024) (hopen : w.closes = 0)
    (hstep : w.step l = some w')
    (hqueue : w'.queuedNotices = w.queuedNotices ++ (w.newTasks w').filter Task.isNotice)
    (hreading : w'.channel_.isReading = w.channel_.isReading) : w'.Unwedged := by
  intro hstopped
  by_cases hbacklog : 0 < w'.backlog
  · exact Or.inl hbacklog
  have hzero : w'.backlog = 0 := Nat.eq_zero_of_not_pos hbacklog
  have hnotices := hwatched.notices hopen hstep
  have hlow : ¬(w.backlog < 1024 ∧ 1024 ≤ w'.backlog) := by omega
  rw [if_neg hlow, List.append_nil] at hnotices
  refine Or.inr ?_
  by_cases hwrote : w.wrote l = true
  · rw [if_pos ⟨hwrote, hzero⟩] at hnotices
    rw [hqueue, hnotices, List.getLast?_append, List.getLast?_singleton, Option.some_or]
  · rw [if_neg fun hboth => hwrote hboth.1] at hnotices
    rw [hnotices, List.append_nil] at hqueue
    have hfalls := (step_reports (hwatched.inv.opened hopen) hwatched.genuine hstep).falls
    have hempty : w.backlog = 0 := by
      by_contra hne
      exact hwrote (hfalls (by omega)).2
    rw [hreading, hqueue] at hstopped
    rw [hqueue]
    exact (h hstopped).resolve_left (by omega)

theorem Unwedged.step {w w' : World} {l : Label} (h : w.Unwedged) (hsteady : w.Steady) (hl : l.keepsReading = true)
    (hstep : w.step l = some w') (hopen : w'.closes = 0) : w'.Unwedged := by
  have hwas : w.closes = 0 := Nat.le_zero.mp (hopen ▸ step_closes_le hstep)
  have hbehind (htasks : w'.tasks = w.tasks) (hgrows : w.pendingTasks_ <+: w'.pendingTasks_) :
      w'.queuedNotices = w.queuedNotices ++ (w.newTasks w').filter Task.isNotice := by
    obtain ⟨tasks, hpending⟩ := hgrows
    rw [queuedNotices, queuedNotices, newTasks, htasks, ← hpending, List.drop_left, ← List.append_assoc,
      List.filter_append]
  have hextend := h.extend hsteady.watched hwas hstep
  cases step_moves hstep with
  | pollOther _ => exact hextend (hbehind rfl List.prefix_rfl) rfl
  | poll _ _ => exact hextend (hbehind rfl List.prefix_rfl) rfl
  | @dispatch read write stage _ _ =>
    refine hextend (hbehind rfl ?_) (Conn.runStage_isReading (hopen.trans hwas.symm))
    refine Conn.growing_rule.runStage w.toConn read write fun _ _ => ?_
    rw [(Prod.mk.inj (Conn.handleRead_same w.toConn read)).1]
  | swap hphase =>
    refine hextend ?_ rfl
    have hidle := hsteady.idle (by simp [hphase])
    simp [queuedNotices, newTasks, hidle]
  | endTasks _ _ => exact hextend (hbehind rfl List.prefix_rfl) rfl
  | @call api write _ _ =>
    have hstart : api ≠ .startRead := by
      rintro rfl
      cases hl
    have hstop : api ≠ .stopRead := by
      rintro rfl
      cases hl
    refine hextend (hbehind rfl ?_) (Conn.callInLoop_isReading w.toConn write hstart hstop)
    exact Conn.growing_rule.callInLoop w.toConn write fun h => (hstart h).elim
  | useInput _ => exact hextend (hbehind rfl List.prefix_rfl) rfl
  | pushOther => exact hextend (hbehind rfl ⟨[.other], rfl⟩) rfl
  | _ => cases hl

theorem Unwedged.run {w w' : World} {labels : List Label} (h : w.closes = 0 → w.Unwedged) (hsteady : w.Steady)
    (hlabels : ∀ l ∈ labels, l.keepsReading = true) (hrun : Run.exec World.step w labels = some w') :
    w'.closes = 0 → w'.Unwedged := by
  have hboth : w'.Steady ∧ (w'.closes = 0 → w'.Unwedged) := by
    refine Run.exec_invariant (I := fun w => w.Steady ∧ (w.closes = 0 → w.Unwedged))
      (C := fun _ l => l.keepsReading = true) ?_ ⟨hsteady, h⟩ (.of_labels hlabels) hrun
    rintro v l v' ⟨hsteady, h⟩ hl hstep
    refine ⟨hsteady.step (Label.inLoop_of_keepsReading hl) hstep, fun hopen => ?_⟩
    have hwas : v.closes = 0 := Nat.le_zero.mp (hopen ▸ step_closes_le hstep)
    exact (h hwas).step hsteady hl hstep hopen
  exact hboth.2

/-- A write-complete notice has been run, and reading started if it was stopped. -/
theorem Unwedged.completes {w w' : World} {rest : List Task} (h : w.Unwedged)
    (htasks : w.tasks = .writeComplete :: rest)
    (hsame : (w'.tasks, w'.pendingTasks_, w'.outputBuffer_) = (rest, w.pendingTasks_, w.outputBuffer_))
    (hreading : w'.channel_.isReading = true) : w'.Unwedged := by
  simp only [Prod.mk.injEq] at hsame
  obtain ⟨hrest, hpending, hbuffer⟩ := hsame
  have hbacklog : w'.backlog = w.backlog := congrArg ValidBuffer.readableBytes hbuffer
  have hnotices : w.queuedNotices = .writeComplete :: w'.queuedNotices := by
    rw [queuedNotices, queuedNotices, htasks, hrest, hpending, List.cons_append,
      List.filter_cons_of_pos (by rfl)]
  rintro (hstopped | ⟨task, hmem, hhigh⟩)
  · simp [hreading] at hstopped
  · -- the notice that is left is not the one that was run, so it is the last one that counts
    rw [hbacklog]
    have hne : w'.queuedNotices ≠ [] := List.ne_nil_of_mem hmem
    refine (h (Or.inr ⟨task, by simp [hnotices, hmem], hhigh⟩)).imp_right fun hlast => ?_
    rw [hnotices, List.getLast?_cons_of_ne_nil hne] at hlast
    exact hlast

/-- A high-water notice has been run, and reading stopped. -/
theorem Unwedged.stops {w w' : World} {rest : List Task} {len : Nat} (h : w.Unwedged)
    (htasks : w.tasks = .highWaterMark len :: rest)
    (hsame : (w'.tasks, w'.pendingTasks_, w'.outputBuffer_) = (rest, w.pendingTasks_, w.outputBuffer_)) :
    w'.Unwedged := by
  simp only [Prod.mk.injEq] at hsame
  obtain ⟨hrest, hpending, hbuffer⟩ := hsame
  have hbacklog : w'.backlog = w.backlog := congrArg ValidBuffer.readableBytes hbuffer
  have hnotices : w.queuedNotices = .highWaterMark len :: w'.queuedNotices := by
    rw [queuedNotices, queuedNotices, htasks, hrest, hpending, List.cons_append,
      List.filter_cons_of_pos (by rfl)]
  intro _
  rw [hbacklog]
  refine (h (Or.inr ⟨.highWaterMark len, by simp [hnotices], rfl⟩)).imp_right fun hlast => ?_
  have hne : w'.queuedNotices ≠ [] := by
    rintro hnil
    rw [hnotices, hnil] at hlast
    cases hlast
  rw [hnotices, List.getLast?_cons_of_ne_nil hne] at hlast
  exact hlast

end World

namespace EchoServer

theorem callback_keepsReading (e : EchoServer) (w : World) {l : EchoLabel} (hl : ∀ write, l ≠ .task write) :
    ∀ m ∈ (e.callback w l).1, m.keepsReading = true := by
  cases l with
  | dispatch read write header body =>
    simp only [callback]
    split
    · simp [onMessage, Label.keepsReading, Label.inLoop]
    · split <;> simp
  | task write => exact (hl write rfl).elim
  | timeout =>
    simp only [callback, onTimeout]
    split
    · split <;> simp [Label.keepsReading, Label.inLoop]
    · simp
  | _ => simp [callback]

theorem worldLabels_keepsReading (e : EchoServer) {l : EchoLabel} (hl : ∀ write, l ≠ .task write) :
    ∀ m ∈ worldLabels e l, m.keepsReading = true := by
  refine List.forall_mem_append.mpr ⟨?_, ?_⟩
  · cases l with
    | task write => exact (hl write rfl).elim
    | _ => simp [begins, Label.keepsReading, Label.inLoop]
  · cases Run.exec World.step e.toWorld (begins l) with
    | none => simp
    | some w => exact callback_keepsReading e w hl

theorem unwedged_task {e e' : EchoServer} {write : WriteResult} (hsteady : e.toWorld.Steady)
    (h : e.closes = 0 → e.toWorld.Unwedged) (hstep : e.step (.task write) = some e') (hopen : e'.closes = 0) :
    e'.toWorld.Unwedged := by
  have hwas : e.closes = 0 := Nat.le_zero.mp (hopen ▸ World.run_closes_le (step_world hstep))
  cases step_moves hstep with
  | completed htasks hreading => exact (h hwas).completes htasks rfl hreading
  | resume htasks _ =>
    obtain ⟨hpending, hbuffer⟩ := Prod.mk.inj (Conn.startReadInLoop_same e.toConn)
    exact (h hwas).completes htasks (by rw [hpending, hbuffer]) (Conn.startReadInLoop_isReading _)
  | stop htasks =>
    obtain ⟨hpending, hbuffer⟩ := Prod.mk.inj (Conn.stopReadInLoop_same e.toConn)
    exact (h hwas).stops htasks (by rw [hpending, hbuffer])
  | @closeTask _ task _ _ _ hcloses =>
    have hnone : (e.runTask write task).closes = 0 := hopen
    omega
  | abortTask _ _ _ hagain => exact (hagain hwas).elim
  | @task _ task rest htasks htask hcloses =>
    -- of the tasks that are left, only those of other objects do not close an open connection
    have hother : task = .other := by
      have hown := hsteady.tasks task (by simp [htasks])
      have hstate := (hsteady.watched.inv.opened hwas).not_disconnected
      have hclosing := (Conn.runTask_closesIf e.toConn write task).closes
      cases task with
      | other => rfl
      | forceCloseInLoop =>
        rw [Conn.taskCloses, beq_self_eq_true, bne_iff_ne.mpr hstate, Bool.and_self, if_pos rfl] at hclosing
        omega
      | writeComplete | highWaterMark _ => cases htask
      | sendInLoop _ | shutdownInLoop | stopRead | startRead => cases hown
    subst hother
    have hnotices : World.queuedNotices { e.toWorld with toConn := e.runTask write .other, tasks := rest } =
        e.queuedNotices := by
      rw [World.queuedNotices, World.queuedNotices, htasks, List.cons_append,
        List.filter_cons_of_neg (by simp [Task.isNotice])]
      rfl
    have hunwedged := h hwas
    unfold World.Unwedged at hunwedged ⊢
    rw [hnotices]
    exact hunwedged

theorem unwedged_step {e e' : EchoServer} {l : EchoLabel} (hsteady : e.toWorld.Steady)
    (h : e.closes = 0 → e.toWorld.Unwedged) (hstep : e.step l = some e') (hopen : e'.closes = 0) :
    e'.toWorld.Unwedged := by
  cases l with
  | task write => exact unwedged_task hsteady h hstep hopen
  | _ => exact World.Unwedged.run h hsteady (worldLabels_keepsReading e (by simp)) (step_world hstep) hopen

section

variable {timeout_ : Nanoseconds} {tid others wakeups : Nat} {now : Timestamp} {e : EchoServer} {ls : List EchoLabel}

theorem init_unwedged (timeout_ : Nanoseconds) (tid : Nat) (now : Timestamp) (others wakeups : Nat) :
    (init timeout_ tid now others wakeups).toWorld.Unwedged := by
  rintro (hstopped | ⟨task, hmem, _⟩)
  · have hevents : (init timeout_ tid now others wakeups).channel_.events_ = InterestOp.enableRead.apply 0 :=
      Conn.interest_events_ _ _
    rw [Channel.isReading, hevents] at hstopped
    exact absurd hstopped (by decide)
  · obtain ⟨hmem, hnotice⟩ := List.mem_filter.mp hmem
    have hother : task = .other := List.eq_of_mem_replicate (n := others) hmem
    rw [hother] at hnotice
    cases hnotice

/-- Back-pressure is always released. While the connection is open and does not read, the kernel watches for room
for a backlog, at whose end reading is started again; or the notice that does so waits in the queue, behind every
notice that stops reading. -/
theorem backpressure_released (hrun : Run.exec step (init timeout_ tid now others wakeups) ls = some e)
    (hopen : e.closes = 0) (hstopped : e.channel_.isReading = false) :
    (0 < e.backlog ∧ ∃ events, e.entry = some events ∧ Mask.has events EPOLLOUT = true) ∨
      ∃ before after, e.tasks ++ e.pendingTasks_ = before ++ .writeComplete :: after ∧
        ∀ task ∈ after, task.isHighWater = false := by
  have hinv : e.toWorld.Steady ∧ (e.closes = 0 → e.toWorld.Unwedged) := by
    refine Run.exec_preserves (I := fun e : EchoServer => e.toWorld.Steady ∧ (e.closes = 0 → e.toWorld.Unwedged)) ?_
      ⟨init_steady timeout_ tid now others wakeups, fun _ => ?_⟩ hrun
    · rintro e l e' ⟨hsteady, h⟩ hstep
      exact ⟨steady_step hsteady hstep, unwedged_step hsteady h hstep⟩
    · exact init_unwedged timeout_ tid now others wakeups
  obtain ⟨hsteady, hunwedged⟩ := hinv
  have hconn := hsteady.watched.inv.opened hopen
  obtain hbacklog | hlast := hunwedged hopen (Or.inl hstopped)
  · refine Or.inl ⟨hbacklog, e.channel_.events_, ?_, ?_⟩
    · have hmirrored := hsteady.watched.inv.mirrored
      rw [Conn.Mirrored, hconn.armed.1, if_pos rfl] at hmirrored
      exact hmirrored
    · refine hconn.mirror.mpr fun hempty => ?_
      rw [Conn.backlog, ValidBuffer.readableBytes_eq, hempty] at hbacklog
      cases hbacklog
  · obtain ⟨before, after, hqueue, hafter⟩ := World.last_notice hlast
    refine Or.inr ⟨before, after, hqueue, fun task htask => ?_⟩
    by_contra hhigh
    rw [Bool.not_eq_false] at hhigh
    have hnotice := hafter task htask
    rw [Task.isNotice_of_isHighWater hhigh] at hnotice
    cases hnotice

/-- A reply of more than 1024 bytes finds no room, and its high-water notice is run. -/
theorem backpressure_released_stopped : ∃ e : EchoServer,
    Run.exec step (init 20 7 0 0 0) [.swap, .endTasks, .poll (some EPOLLIN),
      .dispatch (.failed 0) (.accepted 0) (.accepted 0) (.accepted 0),
      .dispatch (.failed 0) (.accepted 0) (.accepted 0) (.accepted 0),
      .dispatch (.filled (List.replicate 1024 1)) (.accepted 0) (.accepted 24) (.accepted 0),
      .dispatch (.failed 0) (.accepted 0) (.accepted 0) (.accepted 0), .swap, .task (.accepted 0),
      .task (.accepted 0)] = some e ∧ e.closes = 0 ∧ e.channel_.isReading = false ∧ e.backlog = 1024 ∧
    ((0 < e.backlog ∧ ∃ events, e.entry = some events ∧ Mask.has events EPOLLOUT = true) ∨
      ∃ before after, e.tasks ++ e.pendingTasks_ = before ++ .writeComplete :: after ∧
        ∀ task ∈ after, task.isHighWater = false) := by
  apply Run.Reaches.exists_of (p := fun e => e.closes = 0 ∧ e.channel_.isReading = false ∧ e.backlog = 1024)
  · decide +kernel
  · rintro e hrun ⟨hopen, hstopped, hbacklog⟩
    exact ⟨hopen, hstopped, hbacklog, backpressure_released hrun hopen hstopped⟩

end

end EchoServer

end mudong.ev
