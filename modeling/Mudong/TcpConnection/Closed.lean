import Mudong.TcpConnection.States

namespace mudong.ev

namespace Conn

/-- The connection has been closed and its channel unregistered. -/
structure Closed (c : Conn) : Prop where
  state_ : c.state_ = .kDisconnected
  pooling : c.channel_.pooling = false
  events_ : c.channel_.events_ = 0

/-- The connection still has the same state and channel, and no callback has been invoked. -/
structure Still (c c' : Conn) : Prop where
  state_ : c'.state_ = c.state_
  channel_ : c'.channel_ = c.channel_
  messages : c'.messages = c.messages
  closes : c'.closes = c.closes

theorem Still.refl (c : Conn) : Still c c := ⟨rfl, rfl, rfl, rfl⟩

theorem Still.closed {c c' : Conn} (h : Still c c') (hclosed : c.Closed) : c'.Closed :=
  ⟨h.state_.trans hclosed.state_, by rw [h.channel_]; exact hclosed.pooling,
    by rw [h.channel_]; exact hclosed.events_⟩

/-- A registered channel is unregistered by `handleClose`. -/
theorem handleClose_closed {c : Conn} (hpooling : c.channel_.pooling = true) : c.handleClose.Closed := by
  refine ⟨rfl, ?_, handleClose_events_ c⟩
  change (EPollPoller.updateChannel { c.channel_ with events_ := 0 }).1.pooling = false
  simp [EPollPoller.updateChannel, hpooling, Channel.isNoneEvents]

theorem runStage_closed {c : Conn} (hpooling : c.channel_.pooling = true) {read : Buffer.ReadvResult}
    {stage : Stage} (hcloses : c.stageCloses read stage = true) (write : WriteResult) :
    (c.runStage read write stage).Closed := by
  cases stage with
  | onClose =>
    rw [stageCloses] at hcloses
    rw [runStage, if_pos hcloses]
    exact handleClose_closed hpooling
  | onError => cases hcloses
  | onRead =>
    simp only [stageCloses, Bool.and_eq_true, beq_iff_eq] at hcloses
    obtain ⟨hbits, hend⟩ := hcloses
    have hread : c.handleRead read = (c.readInput read).handleClose := by simp [handleRead, hend]
    rw [runStage, if_pos hbits, hread]
    exact handleClose_closed (c := c.readInput read) hpooling
  | onWrite => cases hcloses

theorem runTask_closed {c : Conn} (hpooling : c.channel_.pooling = true) {task : Task}
    (hcloses : c.taskCloses task = true) (write : WriteResult) : (c.runTask write task).Closed := by
  simp only [taskCloses, Bool.and_eq_true, beq_iff_eq, bne_iff_ne] at hcloses
  obtain ⟨rfl, hlive⟩ := hcloses
  rw [runTask, forceCloseInLoop, if_pos hlive]
  exact handleClose_closed hpooling

/-- Every task but that of `startRead()` respects the closed state. -/
theorem runTask_still {c : Conn} (hclosed : c.Closed) (write : WriteResult) {task : Task} (htask : task ≠ .startRead) :
    Still c (c.runTask write task) := by
  cases task with
  | sendInLoop send =>
    simp only [runTask, sendInLoop, hclosed.state_, if_true]
    exact ⟨rfl, rfl, rfl, rfl⟩
  | shutdownInLoop =>
    simp only [runTask, shutdownInLoop, hclosed.state_, ne_eq, not_true, false_and, if_false]
    exact .refl c
  | forceCloseInLoop =>
    simp only [runTask, forceCloseInLoop, hclosed.state_, ne_eq, not_true, if_false]
    exact .refl c
  | stopRead =>
    simp only [runTask, stopReadInLoop, Channel.isReading, hclosed.events_, Mask.has_zero]
    exact .refl c
  | startRead => exact (htask rfl).elim
  | writeComplete => exact .refl c
  | highWaterMark len => exact .refl c
  | other => exact .refl c

/-- Every operation but `startRead()`, and `shutdown()` outside its assertion, respects the closed state. -/
theorem callInLoop_still {c : Conn} (hclosed : c.Closed) (write : WriteResult) {api : Api}
    (hstart : api ≠ .startRead) (hshutdown : api ≠ .shutdown) : Still c (c.callInLoop write api) := by
  cases api with
  | send payload =>
    rw [callInLoop, send_eq, sendChars, hclosed.state_, if_pos (by decide)]
    exact .refl c
  | shutdown => exact (hshutdown rfl).elim
  | forceClose =>
    simp only [callInLoop, forceClose, hclosed.state_, ne_eq, not_true, if_false]
    exact .refl c
  | stopRead => exact runTask_still hclosed write (by simp : Task.stopRead ≠ .startRead)
  | startRead => exact (hstart rfl).elim

theorem startReadInLoop_events_ {c : Conn} (hclosed : c.Closed) : c.startReadInLoop.channel_.events_ ≠ 0 := by
  have hidle : c.channel_.isReading = false := by rw [Channel.isReading, hclosed.events_, Mask.has_zero]
  have hevents : c.startReadInLoop.channel_.events_ = InterestOp.enableRead.apply 0 := by
    rw [startReadInLoop, hidle]
    exact (interest_events_ c .enableRead).trans (by rw [hclosed.events_])
  rw [hevents]
  decide

/-- Apart from the close callback, the callbacks of a dispatch respect the closed state unless the read
callback runs and its `readv` succeeds. -/
theorem runStage_still {c : Conn} (hclosed : c.Closed) {read : Buffer.ReadvResult} {stage : Stage}
    (hstage : stage ≠ .onClose)
    (hread : stage = .onRead → Mask.has c.channel_.revents_ (EPOLLIN ||| EPOLLPRI ||| EPOLLRDHUP) = true →
      (c.inputBuffer_.readFd read).2 = -1)
    (write : WriteResult) : Still c (c.runStage read write stage) := by
  cases stage with
  | onClose => exact (hstage rfl).elim
  | onError =>
    simp only [runStage]
    split <;> exact .refl c
  | onRead =>
    simp only [runStage]
    split
    · rename_i hbits
      simp only [handleRead, hread rfl hbits, if_true]
      exact ⟨rfl, rfl, rfl, rfl⟩
    · exact .refl c
  | onWrite =>
    simp only [runStage, handleWrite, hclosed.state_, if_true]
    split <;> exact .refl c

theorem handleRead_invokes {c : Conn} {read : Buffer.ReadvResult} (hread : (c.inputBuffer_.readFd read).2 ≠ -1) :
    (c.handleRead read).messages = c.messages + 1 ∨ (c.handleRead read).closes = c.closes + 1 := by
  simp only [handleRead, if_neg hread]
  split
  · exact Or.inr rfl
  · exact Or.inl rfl

end Conn

namespace World

/-- The calls made after a close: no `shutdown()`, whose assertion would fail, and no exchange that belongs to
a call begun before. -/
def LaterCalls (w : World) : Label → Prop
  | .call .shutdown _ => False
  | .start _ .shutdown => False
  | .advance thread => (w.calls thread).exchanging = false
  | _ => True

/-- A step that executes no `startRead()`, and whose read callback, if it has one, fails to read. -/
def StaysQuiet (w : World) : Label → Prop
  | .call .startRead _ => False
  | .task _ => w.tasks.head? ≠ some .startRead
  | .dispatch read _ =>
    w.phase = .handling (some .onRead) →
      Mask.has w.channel_.revents_ (EPOLLIN ||| EPOLLPRI ||| EPOLLRDHUP) = true →
        (w.inputBuffer_.readFd read).2 = -1
  | _ => True

instance decidableLaterCalls (w : World) : ∀ l, Decidable (w.LaterCalls l)
  | .call .shutdown _ | .start _ .shutdown => inferInstanceAs (Decidable False)
  | .advance thread => inferInstanceAs (Decidable ((w.calls thread).exchanging = false))
  | .call (.send _) _ | .call .forceClose _ | .call .stopRead _ | .call .startRead _ | .start _ (.send _)
  | .start _ .forceClose | .start _ .stopRead | .start _ .startRead | .poll _ | .dispatch _ _ | .swap | .task _
  | .endTasks | .useInput _ | .setWriteCompleteCallback _ | .setHighWaterMarkCallback _ _ | .pushOther =>
    inferInstanceAs (Decidable True)

instance decidableStaysQuiet (w : World) : ∀ l, Decidable (w.StaysQuiet l)
  | .call .startRead _ => inferInstanceAs (Decidable False)
  | .task _ => inferInstanceAs (Decidable (w.tasks.head? ≠ some .startRead))
  | .dispatch _ _ => inferInstanceAs (Decidable (_ → _ → _))
  | .call (.send _) _ | .call .shutdown _ | .call .forceClose _ | .call .stopRead _ | .start _ _ | .poll _
  | .swap | .endTasks | .useInput _ | .setWriteCompleteCallback _ | .setHighWaterMarkCallback _ _ | .advance _
  | .pushOther => inferInstanceAs (Decidable True)

/-- The channel is not registered, and neither callback has been invoked since `w`. -/
structure QuietSince (w v : World) : Prop where
  pooling : v.channel_.pooling = false
  events_ : v.channel_.events_ = 0
  messages : v.messages = w.messages
  closes : v.closes = w.closes

/-- What holds after the close that ended in `w`, as long as it is quiet: besides, a dispatch under way is
past its close callback. -/
structure ClosedInv (w v : World) : Prop where
  inv : v.Inv
  closed : v.toConn.Closed
  past : v.phase ≠ .handling (some .onClose)
  messages : v.messages = w.messages
  closes : v.closes = w.closes

theorem ClosedInv.quietSince {w v : World} (h : ClosedInv w v) : QuietSince w v :=
  ⟨h.closed.pooling, h.closed.events_, h.messages, h.closes⟩

theorem ClosedInv.unregistered {w v : World} (h : ClosedInv w v) : v.entry = none := by
  have hmirrored := h.inv.mirrored
  rw [Conn.Mirrored, h.closed.pooling] at hmirrored
  exact hmirrored

/-- A step keeps a closed connection quiet exactly if it meets the condition. -/
theorem ClosedInv.step {w v v' : World} {l : Label} (hinv : ClosedInv w v) (hlater : v.LaterCalls l)
    (hstep : v.step l = some v') : (v.StaysQuiet l → ClosedInv w v') ∧ (QuietSince w v' → v.StaysQuiet l) := by
  have hinv' : v'.Inv := hinv.inv.step hstep
  have hstill (hsame : Conn.Still v.toConn v'.toConn) (hpast : v'.phase ≠ .handling (some .onClose)) :
      ClosedInv w v' :=
    ⟨hinv', hsame.closed hinv.closed, hpast, hsame.messages.trans hinv.messages, hsame.closes.trans hinv.closes⟩
  have hidle (hsame : Conn.Still v.toConn v'.toConn) (hpast : v'.phase ≠ .handling (some .onClose))
      (hquiet : v.StaysQuiet l) : (v.StaysQuiet l → ClosedInv w v') ∧ (QuietSince w v' → v.StaysQuiet l) :=
    ⟨fun _ => hstill hsame hpast, fun _ => hquiet⟩
  cases step_moves hstep with
  | pollOther hphase => exact hidle ⟨rfl, rfl, rfl, rfl⟩ (by simp) trivial
  | poll hphase hreport =>
    rw [hinv.unregistered] at hreport
    exact hreport.elim
  | dispatch hphase hfits =>
    rename_i read write stage
    have hstage : stage ≠ .onClose := by
      rintro rfl
      exact hinv.past hphase
    constructor
    · intro hquiet
      refine hstill (Conn.runStage_still hinv.closed hstage (fun hread => hquiet (hread ▸ hphase)) write) ?_
      cases stage <;> simp [Stage.next]
    · intro hsince hread hbits
      by_contra hdata
      obtain rfl : stage = .onRead := by
        rw [hread] at hphase
        simpa using hphase.symm
      have hinvokes := Conn.handleRead_invokes hdata
      have hmessages := hsince.messages
      have hcloses := hsince.closes
      simp only [Conn.runStage, hbits, if_true] at hmessages hcloses
      have hmessages' := hinv.messages
      have hcloses' := hinv.closes
      omega
  | swap hphase => exact hidle ⟨rfl, rfl, rfl, rfl⟩ (by simp) trivial
  | task hphase htasks hfits =>
    rename_i write task rest
    constructor
    · intro hquiet
      have htask : task ≠ .startRead := by
        rintro rfl
        simp [StaysQuiet, htasks] at hquiet
      refine hstill (Conn.runTask_still hinv.closed write htask) ?_
      simp [hphase]
    · intro hsince
      simp only [StaysQuiet, htasks, List.head?_cons, ne_eq, Option.some.injEq]
      rintro rfl
      exact Conn.startReadInLoop_events_ hinv.closed hsince.events_
  | endTasks hphase htasks => exact hidle ⟨rfl, rfl, rfl, rfl⟩ (by simp) trivial
  | call hphase hfits =>
    rename_i api write
    by_cases hstart : api = .startRead
    · subst hstart
      exact ⟨fun h => h.elim, fun hsince => Conn.startReadInLoop_events_ hinv.closed hsince.events_⟩
    · have hshutdown : api ≠ .shutdown := by
        rintro rfl
        exact hlater
      refine hidle (Conn.callInLoop_still hinv.closed write hstart hshutdown) hinv.past ?_
      cases api with
      | startRead => exact (hstart rfl).elim
      | _ => trivial
  | startShutdown hidle => exact hlater.elim
  | exchangeShutdown hcall => simp [LaterCalls, hcall, Call.exchanging] at hlater
  | exchangeForceClose hcall => simp [LaterCalls, hcall, Call.exchanging] at hlater
  | _ => exact hidle ⟨rfl, rfl, rfl, rfl⟩ hinv.past trivial

theorem first_close {w w' : World} {l : Label} (hinv : w.Inv) (hopen : w.closes = 0) (hstep : w.step l = some w')
    (hclosed : w'.closes ≠ 0) : ClosedInv w' w' := by
  have hinv' : w'.Inv := hinv.step hstep
  have hpooling : w.channel_.pooling = true := (hinv.opened hopen).armed.1
  have hclosing {closing : Bool} (h : Conn.ClosesIf closing w.toConn w'.toConn) : closing = true := by
    by_contra hnot
    rw [Bool.eq_false_of_not_eq_true hnot] at h
    exact hclosed (h.closes.trans hopen)
  cases step_moves hstep with
  | dispatch hphase hfits =>
    rename_i read write stage
    have hstage := hclosing (Conn.runStage_closesIf w.toConn read write stage)
    refine ⟨hinv', Conn.runStage_closed hpooling hstage write, ?_, rfl, rfl⟩
    cases stage <;> simp [Stage.next]
  | task hphase htasks hfits =>
    rename_i write task rest
    have htask := hclosing (Conn.runTask_closesIf w.toConn write task)
    exact ⟨hinv', Conn.runTask_closed hpooling htask write, by simp [hphase], rfl, rfl⟩
  | call hphase hfits => exact (hclosed ((Conn.callInLoop_calm w.toConn _ _).closes.trans hopen)).elim
  | _ => exact (hclosed hopen).elim

private theorem quiet_iff_of_closedInv {w v u : World} {labels : List Label} (hinv : ClosedInv w v)
    (hlater : Run.Along step LaterCalls v labels) (hrun : Run.exec step v labels = some u) :
    (∀ taken v', taken <+: labels → Run.exec step v taken = some v' → QuietSince w v') ↔
      Run.Along step StaysQuiet v labels := by
  induction labels generalizing v with
  | nil =>
    refine ⟨fun _ => trivial, fun _ taken v' htaken hv' => ?_⟩
    rw [List.prefix_nil.mp htaken] at hv'
    cases hv'
    exact hinv.quietSince
  | cons l labels ih =>
    obtain ⟨t, ht, hrest⟩ := Run.exec_cons_eq_some.mp hrun
    obtain ⟨hlater, hlaters⟩ := hlater.cons ht
    obtain ⟨hquiet, honly⟩ := hinv.step hlater ht
    constructor
    · intro hall
      have hsince : QuietSince w t :=
        hall [l] t (List.prefix_append [l] labels) (Run.exec_cons_eq_some.mpr ⟨t, ht, rfl⟩)
      refine ⟨honly hsince, ?_⟩
      rw [ht]
      refine (ih (hquiet (honly hsince)) hlaters hrest).mp fun taken v' htaken hv' => ?_
      exact hall (l :: taken) v' (List.cons_prefix_cons.mpr ⟨rfl, htaken⟩) (Run.exec_cons_eq_some.mpr ⟨t, ht, hv'⟩)
    · intro halong taken v' htaken hv'
      obtain ⟨hstays, halong⟩ := halong.cons ht
      cases taken with
      | nil =>
        cases hv'
        exact hinv.quietSince
      | cons first taken =>
        obtain ⟨rfl, hshorter⟩ := List.cons_prefix_cons.mp htaken
        obtain ⟨t', ht', hv'⟩ := Run.exec_cons_eq_some.mp hv'
        obtain rfl : t' = t := Option.some.inj (ht'.symm.trans ht)
        exact (ih (hquiet hstays) hlaters hrest).mpr halong taken v' hshorter hv'

/-- After its first close a connection stays quiet throughout a run exactly if no `startRead()` is executed in
it and the dispatch that closed the connection does not go on to a successful read. -/
theorem closed_quiet_iff {others wakeups : Nat} {labels later : List Label} {l : Label} {w w' u : World}
    (hrun : Run.exec step (established others wakeups) labels = some w) (hopen : w.closes = 0)
    (hstep : w.step l = some w') (hclosed : w'.closes ≠ 0) (hlater : Run.Along step LaterCalls w' later)
    (hrest : Run.exec step w' later = some u) :
    (∀ taken v, taken <+: later → Run.exec step w' taken = some v → QuietSince w' v) ↔
      Run.Along step StaysQuiet w' later := by
  have hinv : w.Inv :=
    Run.exec_preserves (fun _ _ _ hinv hstep => hinv.step hstep) (established_inv others wakeups) hrun
  exact quiet_iff_of_closedInv (first_close hinv hopen hstep hclosed) hlater hrest

theorem closed_quiet_after_hangup : ∃ w w' u : World,
    Run.exec step (established 0 0) [.swap, .endTasks, .poll (some EPOLLHUP)] = some w ∧
    w.step (.dispatch (.failed 0) (.accepted 0)) = some w' ∧ w'.closes = 1 ∧
    Run.exec step w' [.call (.send (.chars [1])) (.accepted 0), .start 0 .stopRead, .advance 0, .advance 0] =
      some u ∧
    ∀ taken v, taken <+: [.call (.send (.chars [1])) (.accepted 0), .start 0 .stopRead, .advance 0, .advance 0] →
      Run.exec step w' taken = some v → QuietSince w' v := by
  obtain ⟨w, hrun, hopen, hrest⟩ := Run.Reaches.exists
    (show Run.Reaches step (established 0 0) [.swap, .endTasks, .poll (some EPOLLHUP)]
      (fun w => w.closes = 0 ∧ Run.Reaches step w [.dispatch (.failed 0) (.accepted 0)] fun w' =>
        w'.closes = 1 ∧ Run.Along step LaterCalls w'
          [.call (.send (.chars [1])) (.accepted 0), .start 0 .stopRead, .advance 0, .advance 0] ∧
        Run.Along step StaysQuiet w'
          [.call (.send (.chars [1])) (.accepted 0), .start 0 .stopRead, .advance 0, .advance 0] ∧
        Run.Reaches step w'
          [.call (.send (.chars [1])) (.accepted 0), .start 0 .stopRead, .advance 0, .advance 0] fun _ => True) by
        decide +kernel)
  obtain ⟨w', hstep, hcloses, hlater, hquiet, hrest⟩ := hrest.exists
  obtain ⟨u, hu, _⟩ := hrest.exists
  obtain ⟨t, ht, hnil⟩ := Run.exec_cons_eq_some.mp hstep
  cases hnil
  exact ⟨w, w', u, hrun, ht, hcloses, hu, (closed_quiet_iff hrun hopen ht (by simp [hcloses]) hlater hu).mpr hquiet⟩

/-- A `startRead()` after the close registers the channel again, and the next event closes the connection a
second time. -/
theorem closed_reregistered : ∃ w w' u v : World,
    Run.exec step (established 0 0) [.swap, .endTasks, .poll (some EPOLLHUP)] = some w ∧ w.closes = 0 ∧
    w.step (.dispatch (.failed 0) (.accepted 0)) = some w' ∧ w'.closes = 1 ∧
    Run.Along step LaterCalls w' [.call .startRead (.accepted 0)] ∧
    Run.exec step w' [.call .startRead (.accepted 0)] = some u ∧ u.channel_.pooling = true ∧
    Run.exec step u
      (List.replicate 3 (.dispatch (.failed 0) (.accepted 0)) ++
        [.swap, .endTasks, .poll (some EPOLLHUP), .dispatch (.failed 0) (.accepted 0)]) = some v ∧
    v.closes = 2 := by
  obtain ⟨w, hrun, hopen, hrest⟩ := Run.Reaches.exists
    (show Run.Reaches step (established 0 0) [.swap, .endTasks, .poll (some EPOLLHUP)]
      (fun w => w.closes = 0 ∧ Run.Reaches step w [.dispatch (.failed 0) (.accepted 0)] fun w' =>
        w'.closes = 1 ∧ Run.Along step LaterCalls w' [.call .startRead (.accepted 0)] ∧
        Run.Reaches step w' [.call .startRead (.accepted 0)] fun u => u.channel_.pooling = true ∧
        Run.Reaches step u (List.replicate 3 (.dispatch (.failed 0) (.accepted 0)) ++
          [.swap, .endTasks, .poll (some EPOLLHUP), .dispatch (.failed 0) (.accepted 0)]) fun v => v.closes = 2) by
        decide +kernel)
  obtain ⟨w', hstep, hcloses, hlater, hrest⟩ := hrest.exists
  obtain ⟨u, hu, hpooling, hrest⟩ := hrest.exists
  obtain ⟨v, hv, htwice⟩ := hrest.exists
  obtain ⟨t, ht, hnil⟩ := Run.exec_cons_eq_some.mp hstep
  cases hnil
  exact ⟨w, w', u, v, hrun, hopen, ht, hcloses, hlater, hu, hpooling, hv, htwice⟩

end World

end mudong.ev
