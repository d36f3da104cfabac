import Mudong.EchoServer.Backpressure
import Mudong.TcpConnection.Closed

namespace mudong.ev

namespace Conn

/-- A callback of a closed connection that reads nothing queues nothing. -/
theorem runStage_pending {c : Conn} (hclosed : c.Closed) {read : Buffer.ReadvResult} {stage : Stage}
    (hstage : stage ≠ .onClose)
    (hread : stage = .onRead → Mask.has c.channel_.revents_ (EPOLLIN ||| EPOLLPRI ||| EPOLLRDHUP) = true →
      (c.inputBuffer_.readFd read).2 = -1)
    (write : WriteResult) : (c.runStage read write stage).pendingTasks_ = c.pendingTasks_ := by
  cases stage with
  | onClose => exact (hstage rfl).elim
  | onError =>
    simp only [runStage, handleError]
    split <;> rfl
  | onRead =>
    simp only [runStage]
    split
    · rename_i hbits
      simp only [handleRead, if_pos (hread rfl hbits)]
      rfl
    · rfl
  | onWrite =>
    simp only [runStage, handleWrite, if_pos hclosed.state_]
    split <;> rfl

/-- The tasks of the loop thread leave a closed connection as it is. -/
theorem runTask_own {c : Conn} (hclosed : c.Closed) (write : WriteResult) {task : Task} (hown : task.isOwn = true) :
    c.runTask write task = c := by
  cases task with
  | forceCloseInLoop => simp [runTask, forceCloseInLoop, hclosed.state_]
  | writeComplete | highWaterMark _ | other => rfl
  | sendInLoop _ | shutdownInLoop | stopRead | startRead => cases hown

end Conn

namespace EchoServer

/-- The server does not hold the connection any more, its channel is not registered, and neither the message callback
nor the close callback has been called since `closing`. -/
structure Forgotten (closing e : EchoServer) : Prop where
  connections_ : e.connections_ = none
  quiet : World.QuietSince closing.toWorld e.toWorld

/-- A dispatch whose read callback, if it has one, fails to read. -/
def ReadsNothing (e : EchoServer) : EchoLabel → Prop
  | .dispatch read write _ _ => e.toWorld.StaysQuiet (.dispatch read write)
  | _ => True

/-- Besides, no notice is run. -/
def LeavesForgotten (e : EchoServer) (l : EchoLabel) : Prop :=
  e.ReadsNothing l ∧ ∀ write, l = .task write → ∀ task ∈ e.tasks.head?, task.isNotice = false

/-- What holds after the close that ended in `closing`, as long as the connection is forgotten. -/
structure ForgottenInv (closing e : EchoServer) : Prop where
  closed : World.ClosedInv closing.toWorld e.toWorld
  steady : e.toWorld.Steady
  connections_ : e.connections_ = none

theorem ForgottenInv.forgotten {closing e : EchoServer} (h : ForgottenInv closing e) : Forgotten closing e :=
  ⟨h.connections_, h.closed.quietSince⟩

theorem ForgottenInv.not_reading {closing e : EchoServer} (h : ForgottenInv closing e) :
    e.channel_.isReading = false := by
  rw [Channel.isReading, h.closed.closed.events_, Mask.has_zero]

/-- A dispatch that reads nothing. -/
theorem ForgottenInv.dispatch {closing e : EchoServer} {read : Buffer.ReadvResult} {write : WriteResult} {w : World}
    (h : ForgottenInv closing e) (hreads : e.toWorld.StaysQuiet (.dispatch read write))
    (hw : e.toWorld.step (.dispatch read write) = some w) :
    World.ClosedInv closing.toWorld w ∧ w.queuedNotices = e.queuedNotices := by
  refine ⟨(h.closed.step (l := .dispatch read write) trivial hw).1 hreads, ?_⟩
  cases World.step_moves hw with
  | @dispatch _ _ stage hphase _ =>
    have hstage : stage ≠ .onClose := by
      rintro rfl
      exact h.closed.past hphase
    have hpending := Conn.runStage_pending h.closed.closed hstage (fun hread => hreads (hread ▸ hphase)) write
    rw [World.queuedNotices, World.queuedNotices]
    change (e.tasks ++ (e.runStage read write stage).pendingTasks_).filter Task.isNotice = _
    rw [hpending]

/-- A step keeps the connection forgotten, and the notices that wait, exactly if it meets the condition. -/
theorem ForgottenInv.step {closing e e' : EchoServer} {l : EchoLabel} (h : ForgottenInv closing e)
    (hstep : e.step l = some e') :
    (e.LeavesForgotten l → ForgottenInv closing e' ∧ e'.queuedNotices = e.queuedNotices) ∧
      (Forgotten closing e' → e.LeavesForgotten l) := by
  have hsteady : e'.toWorld.Steady := steady_step h.steady hstep
  -- A step that has nothing to do with the callbacks.
  have hplain (hclosed : World.ClosedInv closing.toWorld e'.toWorld) (hnotices : e'.queuedNotices = e.queuedNotices)
      (hconnections : e'.connections_ = e.connections_) (hleaves : e.LeavesForgotten l) :
      (e.LeavesForgotten l → ForgottenInv closing e' ∧ e'.queuedNotices = e.queuedNotices) ∧
        (Forgotten closing e' → e.LeavesForgotten l) :=
    ⟨fun _ => ⟨⟨hclosed, hsteady, hconnections.trans h.connections_⟩, hnotices⟩, fun _ => hleaves⟩
  have hother (hl : ∀ write, l ≠ .task write) (hreads : e.ReadsNothing l) : e.LeavesForgotten l :=
    ⟨hreads, fun write heq => (hl write heq).elim⟩
  cases step_moves hstep with
  | @poll revents w hw =>
    refine hplain ((h.closed.step (l := .poll revents) trivial hw).1 trivial) ?_ rfl (hother (by simp) trivial)
    cases World.step_moves hw with
    | pollOther _ => rfl
    | poll _ _ => rfl
  | @message read write header body w v hw hmessage hv =>
    refine ⟨fun hleaves => ?_, fun hforgotten => by cases hforgotten.connections_⟩
    have hsame := (h.dispatch hleaves.1 hw).1.messages
    have hbefore := h.closed.messages
    omega
  | @close read write header body w hw hcloses _ | @abort read write header body w hw hcloses _ =>
    constructor
    · intro hleaves
      have hsame := (h.dispatch hleaves.1 hw).1.closes
      have hbefore := h.closed.closes
      omega
    · intro hforgotten
      have hsame : w.closes = closing.closes := hforgotten.quiet.closes
      have hbefore := h.closed.closes
      omega
  | @dispatch read write header body w hw hmessage hcloses =>
    constructor
    · intro hleaves
      obtain ⟨hclosed, hnotices⟩ := h.dispatch hleaves.1 hw
      exact ⟨⟨hclosed, hsteady, h.connections_⟩, hnotices⟩
    · intro hforgotten
      exact hother (by simp) ((h.closed.step (l := .dispatch read write) trivial hw).2 hforgotten.quiet)
  | @swap w hw =>
    refine hplain ((h.closed.step (l := .swap) trivial hw).1 trivial) ?_ rfl (hother (by simp) trivial)
    cases World.step_moves hw with
    | swap hphase =>
      have hidle : e.tasks = [] := h.steady.idle (by simp [hphase])
      simp [World.queuedNotices, hidle]
  | completed htasks hreading =>
    rw [h.not_reading] at hreading
    cases hreading
  | @resume write rest htasks hreading =>
    refine ⟨fun hleaves => ?_, fun hforgotten => by cases hforgotten.connections_⟩
    have hnotice := hleaves.2 write rfl .writeComplete (by simp [htasks])
    cases hnotice
  | @stop write len rest htasks =>
    refine ⟨fun hleaves => ?_, fun hforgotten => by cases hforgotten.connections_⟩
    have hnotice := hleaves.2 write rfl (.highWaterMark len) (by simp [htasks])
    cases hnotice
  | @closeTask write task rest htasks htask hcloses _ | @abortTask write task rest htasks htask hcloses _ =>
    rw [Conn.runTask_own h.closed.closed write (h.steady.tasks task (by simp [htasks]))] at hcloses
    omega
  | @task write task rest htasks htask hcloses =>
    have hown := Conn.runTask_own h.closed.closed write (h.steady.tasks task (by simp [htasks]))
    have hinv : World.Inv { e.toWorld with toConn := e.runTask write task, tasks := rest } :=
      Run.exec_preserves (fun _ _ _ hinv hstep => hinv.step hstep) h.closed.inv (step_world hstep)
    rw [hown] at hinv hsteady ⊢
    refine ⟨fun _ => ⟨⟨⟨hinv, h.closed.closed, h.closed.past, h.closed.messages, h.closed.closes⟩, hsteady,
      h.connections_⟩, ?_⟩, fun _ => ⟨trivial, fun _ _ => by simp [htasks, htask]⟩⟩
    simp [World.queuedNotices, htasks, htask]
  | @endTasks w hw =>
    refine hplain ((h.closed.step (l := .endTasks) trivial hw).1 trivial) ?_ rfl (hother (by simp) trivial)
    cases World.step_moves hw with
    | endTasks _ _ => rfl
  | tick => exact hplain h.closed rfl rfl (hother (by simp) trivial)
  | expire hexpiry _ =>
    rw [h.connections_] at hexpiry
    cases hexpiry
  | keep _ => exact hplain h.closed rfl rfl (hother (by simp) trivial)
  | @pushOther w hw =>
    refine hplain ((h.closed.step (l := .pushOther) trivial hw).1 trivial) ?_ rfl (hother (by simp) trivial)
    cases World.step_moves hw with
    | pushOther => simp [World.queuedNotices, EventLoop.push, Task.isNotice]

/-- A message does not close the connection, and neither do the calls of `onMessage`. -/
theorem closes_message {e : EchoServer} {w v : World} {read : Buffer.ReadvResult} {write header body : WriteResult}
    (hw : e.toWorld.step (.dispatch read write) = some w) (hmessage : e.messages < w.messages)
    (hv : Run.exec World.step w (e.onMessage w read header body).1 = some v) : v.closes = e.closes := by
  obtain ⟨w₁, h₁, hv⟩ := Run.exec_cons_eq_some.mp hv
  obtain ⟨w₂, h₂, hv⟩ := Run.exec_cons_eq_some.mp hv
  have hread : w.closes = e.closes := by
    cases World.step_moves hw with
    | @dispatch _ _ stage _ _ =>
      obtain hquiet | ⟨_, ⟨_, hcloses⟩ | ⟨hsame, _⟩⟩ := Conn.runStage_input e.toConn read write stage
      · simp [(Prod.mk.inj hquiet).2] at hmessage
      · exact hcloses
      · simp [hsame] at hmessage
  have hfirst : w₁.closes = w.closes := by
    cases World.step_moves h₁ with
    | call _ _ => exact (Conn.callInLoop_calm w.toConn _ _).closes
  have hsecond : w₂.closes = w₁.closes := by
    cases World.step_moves h₂ with
    | call _ _ => exact (Conn.callInLoop_calm w₁.toConn _ _).closes
  cases World.step_moves (exec_one hv) with
  | useInput _ => exact hsecond.trans (hfirst.trans hread)

/-- The step that closes the connection is one step of the connection, and takes it out of `connections_`. -/
theorem closing_step {e e' : EchoServer} {l : EchoLabel} (hopen : e.closes = 0) (hstep : e.step l = some e')
    (hclosed : e'.closes ≠ 0) : (∃ m, e.toWorld.step m = some e'.toWorld) ∧ e'.connections_ = none := by
  cases step_moves hstep with
  | poll hw =>
    cases World.step_moves hw with
    | pollOther _ => exact (hclosed hopen).elim
    | poll _ _ => exact (hclosed hopen).elim
  | message hw hmessage hv => exact (hclosed ((closes_message hw hmessage hv).trans hopen)).elim
  | close hw _ _ => exact ⟨⟨_, hw⟩, rfl⟩
  | abort _ _ hagain => exact (hagain hopen).elim
  | @dispatch _ _ _ _ w _ _ hcloses =>
    have hzero : w.closes = 0 := Nat.le_zero.mp (hopen ▸ hcloses)
    exact (hclosed hzero).elim
  | swap hw =>
    cases World.step_moves hw with
    | swap _ => exact (hclosed hopen).elim
  | completed _ _ => exact (hclosed hopen).elim
  | resume _ _ => exact (hclosed ((Conn.startReadInLoop_calm e.toConn).closes.trans hopen)).elim
  | stop _ => exact (hclosed ((Conn.stopReadInLoop_calm e.toConn).closes.trans hopen)).elim
  | abortTask _ _ _ hagain => exact (hagain hopen).elim
  | @closeTask write task rest htasks _ _ _ =>
    obtain ⟨w, _, hw, _⟩ := step_cases hstep
    have htask := exec_one hw
    refine ⟨⟨.task write, ?_⟩, rfl⟩
    rw [htask]
    cases World.step_moves htask with
    | task _ htasks' _ =>
      rw [htasks] at htasks'
      cases htasks'
      rfl
  | task _ _ hcloses => exact (hclosed (Nat.le_zero.mp (hopen ▸ hcloses))).elim
  | endTasks hw =>
    cases World.step_moves hw with
    | endTasks _ _ => exact (hclosed hopen).elim
  | tick => exact (hclosed hopen).elim
  | expire _ _ => exact (hclosed ((Conn.callInLoop_calm e.toConn (.accepted 0) .forceClose).closes.trans hopen)).elim
  | keep _ => exact (hclosed hopen).elim
  | pushOther hw =>
    cases World.step_moves hw with
    | pushOther => exact (hclosed hopen).elim

theorem first_close {timeout_ : Nanoseconds} {tid others wakeups : Nat} {now : Timestamp} {e closing : EchoServer}
    {ls : List EchoLabel} {l : EchoLabel} (hrun : Run.exec step (init timeout_ tid now others wakeups) ls = some e)
    (hopen : e.closes = 0) (hstep : e.step l = some closing) (hclosed : closing.closes ≠ 0) :
    ForgottenInv closing closing := by
  have hinv : e.toWorld.Inv :=
    Run.exec_preserves (fun _ _ _ hinv hstep => hinv.step hstep) (World.established_inv others wakeups) (run_world hrun)
  have hsteady : e.toWorld.Steady :=
    Run.exec_preserves (fun _ _ _ h hstep => steady_step h hstep) (init_steady timeout_ tid now others wakeups) hrun
  obtain ⟨⟨m, hm⟩, hconnections⟩ := closing_step hopen hstep hclosed
  exact ⟨World.first_close hinv hopen hm hclosed, steady_step hsteady hstep, hconnections⟩

/-- No notice waits, so none is run. -/
theorem leaves_of_no_notices {e : EchoServer} {l : EchoLabel} (hnotices : e.queuedNotices = [])
    (hreads : e.ReadsNothing l) : e.LeavesForgotten l := by
  refine ⟨hreads, fun _ _ task htask => ?_⟩
  have hmem : task ∈ e.tasks ++ e.pendingTasks_ := List.mem_append_left _ (List.mem_of_mem_head? htask)
  simpa using List.filter_eq_nil_iff.mp hnotices task hmem

/-- Where all notices have been run at the end, the connection has been left forgotten exactly if none of them waited at
the beginning. -/
theorem ForgottenInv.leaves_iff {closing e e' : EchoServer} {ls : List EchoLabel} (h : ForgottenInv closing e)
    (hrun : Run.exec EchoServer.step e ls = some e') (hdrained : e'.queuedNotices = []) :
    Run.Along EchoServer.step LeavesForgotten e ls ↔
      e.queuedNotices = [] ∧ Run.Along EchoServer.step ReadsNothing e ls := by
  induction ls generalizing e with
  | nil =>
    cases hrun
    exact ⟨fun _ => ⟨hdrained, trivial⟩, fun _ => trivial⟩
  | cons l ls ih =>
    obtain ⟨r, hstep, hrest⟩ := Run.exec_cons_eq_some.mp hrun
    constructor
    · intro halong
      obtain ⟨hleaves, halong⟩ := halong.cons hstep
      obtain ⟨hnext, hsame⟩ := (h.step hstep).1 hleaves
      obtain ⟨hnotices, hreads⟩ := (ih hnext hrest).mp halong
      refine ⟨hsame ▸ hnotices, hleaves.1, ?_⟩
      rw [hstep]
      exact hreads
    · rintro ⟨hnotices, halong⟩
      obtain ⟨hreads, halong⟩ := halong.cons hstep
      have hleaves := leaves_of_no_notices hnotices hreads
      obtain ⟨hnext, hsame⟩ := (h.step hstep).1 hleaves
      refine ⟨hleaves, ?_⟩
      rw [hstep]
      exact (ih hnext hrest).mpr ⟨hsame.trans hnotices, halong⟩

/-- The server forgets a connection that has been closed exactly if no notice about its output was waiting in the loop's
queue. In a run from the close to a state where all notices have been run, the connection stays out of `connections_`,
unregistered and without a further message or close, exactly if there was none at the close and the dispatch that closed
it does not go on to a successful read. -/
theorem closed_forgotten_iff {timeout_ : Nanoseconds} {tid others wakeups : Nat} {now : Timestamp}
    {e closing e' : EchoServer} {ls later : List EchoLabel} {l : EchoLabel}
    (hrun : Run.exec step (init timeout_ tid now others wakeups) ls = some e) (hopen : e.closes = 0)
    (hstep : e.step l = some closing) (hclosed : closing.closes ≠ 0)
    (hlater : Run.exec step closing later = some e') (hdrained : e'.queuedNotices = []) :
    (∀ taken f, taken <+: later → Run.exec step closing taken = some f → Forgotten closing f) ↔
      closing.queuedNotices = [] ∧ Run.Along step ReadsNothing closing later := by
  have hinv := first_close hrun hopen hstep hclosed
  rw [← hinv.leaves_iff hlater hdrained]
  refine Run.Along.iff_prefixes (I := ForgottenInv closing) (fun _ h => h.forgotten) ?_ hinv hlater
  intro f m f' hf hm
  obtain ⟨hleaves, honly⟩ := hf.step hm
  exact ⟨fun hm => (hleaves hm).1, honly⟩

/-- A connection with a backlog becomes writable in the turn of the loop in which its time is up: the notice waits
behind the close and brings the connection back. -/
theorem closed_forgotten_iff_drained : ∃ e : EchoServer,
    Run.exec step (init 20 7 0 0 0) [.swap, .endTasks, .poll (some EPOLLIN),
      .dispatch (.failed 0) (.accepted 0) (.accepted 0) (.accepted 0),
      .dispatch (.failed 0) (.accepted 0) (.accepted 0) (.accepted 0),
      .dispatch (.filled [104, 105]) (.accepted 0) (.accepted 5) (.failed EAGAIN),
      .dispatch (.failed 0) (.accepted 0) (.accepted 0) (.accepted 0), .swap, .endTasks, .tick 45,
      .poll (some EPOLLOUT), .timeout, .dispatch (.failed 0) (.accepted 0) (.accepted 0) (.accepted 0),
      .dispatch (.failed 0) (.accepted 0) (.accepted 0) (.accepted 0),
      .dispatch (.failed 0) (.accepted 0) (.accepted 0) (.accepted 0),
      .dispatch (.failed 0) (.accepted 21) (.accepted 0) (.accepted 0), .swap] = some e ∧
    e.closes = 0 ∧ ∃ closing e', e.step (.task (.accepted 0)) = some closing ∧ closing.closes = 1 ∧
      closing.queuedNotices = [.writeComplete] ∧ Run.exec step closing [.task (.accepted 0)] = some e' ∧
      e'.queuedNotices = [] ∧
      ¬∀ taken f, taken <+: [.task (.accepted 0)] → Run.exec step closing taken = some f → Forgotten closing f := by
  apply Run.Reaches.exists_of (p := fun e => e.closes = 0 ∧ Run.Reaches step e [.task (.accepted 0)] fun closing =>
    closing.closes = 1 ∧ closing.queuedNotices = [.writeComplete] ∧
      Run.Reaches step closing [.task (.accepted 0)] fun e' => e'.queuedNotices = [])
  · decide +kernel
  · rintro e hrun ⟨hopen, hclosing⟩
    obtain ⟨closing, hclose, hclosed, hnotices, hlater⟩ := hclosing.exists
    obtain ⟨closing', hstep, hnil⟩ := Run.exec_cons_eq_some.mp hclose
    cases hnil
    obtain ⟨e', hlater, hdrained⟩ := hlater.exists
    refine ⟨hopen, closing, e', hstep, hclosed, hnotices, hlater, hdrained, ?_⟩
    rw [closed_forgotten_iff hrun hopen hstep (by simp [hclosed]) hlater hdrained, hnotices]
    simp

end EchoServer

end mudong.ev
