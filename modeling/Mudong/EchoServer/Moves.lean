import Mudong.EchoServer

namespace mudong.ev.EchoServer

/-- Everything a step of the server can do, with the step of the connection it begins with. -/
inductive Moves (e : EchoServer) : EchoLabel → EchoServer → Prop where
  | poll {revents : Option Events} {w : World} (hw : e.toWorld.step (.poll revents) = some w) :
      Moves e (.poll revents) { e with toWorld := w }
  | message {read : Buffer.ReadvResult} {write header body : WriteResult} {w v : World}
      (hw : e.toWorld.step (.dispatch read write) = some w) (hmessage : e.messages < w.messages)
      (hv : Run.exec World.step w (e.onMessage w read header body).1 = some v) :
      Moves e (.dispatch read write header body) { (e.onMessage w read header body).2 with toWorld := v }
  | close {read : Buffer.ReadvResult} {write header body : WriteResult} {w : World}
      (hw : e.toWorld.step (.dispatch read write) = some w) (hcloses : e.closes < w.closes) (hfirst : e.closes = 0) :
      Moves e (.dispatch read write header body) { e with toWorld := w, connections_ := none }
  | abort {read : Buffer.ReadvResult} {write header body : WriteResult} {w : World}
      (hw : e.toWorld.step (.dispatch read write) = some w) (hcloses : e.closes < w.closes) (hagain : e.closes ≠ 0) :
      Moves e (.dispatch read write header body) { e with toWorld := w, aborted := true }
  | dispatch {read : Buffer.ReadvResult} {write header body : WriteResult} {w : World}
      (hw : e.toWorld.step (.dispatch read write) = some w) (hmessage : w.messages ≤ e.messages)
      (hcloses : w.closes ≤ e.closes) : Moves e (.dispatch read write header body) { e with toWorld := w }
  | swap {w : World} (hw : e.toWorld.step .swap = some w) : Moves e .swap { e with toWorld := w }
  | completed {write : WriteResult} {rest : List Task} (htasks : e.tasks = .writeComplete :: rest)
      (hreading : e.channel_.isReading = true) : Moves e (.task write) { e with tasks := rest }
  | resume {write : WriteResult} {rest : List Task} (htasks : e.tasks = .writeComplete :: rest)
      (hreading : e.channel_.isReading = false) :
      Moves e (.task write) { e.expireAfter e.timeout_ with toConn := e.startReadInLoop, tasks := rest }
  | stop {write : WriteResult} {len : Nat} {rest : List Task} (htasks : e.tasks = .highWaterMark len :: rest) :
      Moves e (.task write) { e.expireAfter (2 * e.timeout_) with toConn := e.stopReadInLoop, tasks := rest }
  | closeTask {write : WriteResult} {task : Task} {rest : List Task} (htasks : e.tasks = task :: rest)
      (htask : task.isNotice = false) (hcloses : e.closes < (e.runTask write task).closes) (hfirst : e.closes = 0) :
      Moves e (.task write) { e with toConn := e.runTask write task, tasks := rest, connections_ := none }
  | abortTask {write : WriteResult} {task : Task} {rest : List Task} (htasks : e.tasks = task :: rest)
      (htask : task.isNotice = false) (hcloses : e.closes < (e.runTask write task).closes) (hagain : e.closes ≠ 0) :
      Moves e (.task write) { e with toConn := e.runTask write task, tasks := rest, aborted := true }
  | task {write : WriteResult} {task : Task} {rest : List Task} (htasks : e.tasks = task :: rest)
      (htask : task.isNotice = false) (hcloses : (e.runTask write task).closes ≤ e.closes) :
      Moves e (.task write) { e with toConn := e.runTask write task, tasks := rest }
  | endTasks {w : World} (hw : e.toWorld.step .endTasks = some w) : Moves e .endTasks { e with toWorld := w }
  | tick {elapsed : Nat} : Moves e (.tick elapsed) { e with now := e.now + .ofNat elapsed }
  | expire {expiry : Timestamp} (hexpiry : e.connections_ = some expiry) (hpast : expiry ≤ e.now) :
      Moves e .timeout { e with toConn := e.forceClose, connections_ := none }
  | keep (hkeep : ∀ expiry, e.connections_ = some expiry → e.now < expiry) : Moves e .timeout e
  | pushOther {w : World} (hw : e.toWorld.step .pushOther = some w) : Moves e .pushOther { e with toWorld := w }

/-- A step of the server is a step of the connection and then the calls of a callback. -/
theorem step_cases {e e' : EchoServer} {l : EchoLabel} (hstep : e.step l = some e') :
    ∃ w w', Run.exec World.step e.toWorld (begins l) = some w ∧
      Run.exec World.step w (e.callback w l).1 = some w' ∧ e' = { (e.callback w l).2 with toWorld := w' } := by
  rw [step, Option.ite_none_right_eq_some] at hstep
  obtain ⟨_, hstep⟩ := hstep
  obtain ⟨w, hw, hstep⟩ := Option.bind_eq_some_iff.mp hstep
  obtain ⟨w', hw', rfl⟩ := Option.map_eq_some_iff.mp hstep
  exact ⟨w, w', hw, hw', rfl⟩

theorem exec_one {w w' : World} {l : Label} (hrun : Run.exec World.step w [l] = some w') : w.step l = some w' := by
  obtain ⟨v, hv, hnil⟩ := Run.exec_cons_eq_some.mp hrun
  cases hnil
  exact hv

/-- The one call that a callback makes. -/
theorem exec_call {w w' : World} {api : Api} {write : WriteResult}
    (hrun : Run.exec World.step w [.call api write] = some w') : w' = { w with toConn := w.callInLoop write api } := by
  cases World.step_moves (exec_one hrun) with
  | call _ _ => rfl

theorem task_moves {e e' : EchoServer} {write : WriteResult} {w w' : World}
    (hw : e.toWorld.step (.task write) = some w)
    (hw' : Run.exec World.step w (e.callback w (.task write)).1 = some w')
    (he' : e' = { (e.callback w (.task write)).2 with toWorld := w' }) : Moves e (.task write) e' := by
  obtain ⟨task, rest, htasks, hrun⟩ : ∃ task rest, e.tasks = task :: rest ∧
      w = { e.toWorld with toConn := e.runTask write task, tasks := rest } := by
    cases World.step_moves hw with
    | @task _ task rest _ htasks _ => exact ⟨task, rest, htasks, rfl⟩
  have hplain (hcallback : e.callback w (.task write) = if e.closes < w.closes then e.closeConnection else ([], e))
      (htask : task.isNotice = false) : Moves e (.task write) e' := by
    rw [hcallback] at hw' he'
    split at hw'
    · rename_i hcloses
      rw [if_pos hcloses] at he'
      unfold closeConnection at hw' he'
      split at hw'
      · rename_i hfirst
        rw [if_pos hfirst] at he'
        cases hw'
        subst he' hrun
        exact .closeTask htasks htask hcloses hfirst
      · rename_i hagain
        rw [if_neg hagain] at he'
        cases hw'
        subst he' hrun
        exact .abortTask htasks htask hcloses hagain
    · rename_i hcloses
      rw [if_neg hcloses] at he'
      cases hw'
      subst he' hrun
      exact .task htasks htask (Nat.le_of_not_lt hcloses)
  cases task with
  | writeComplete =>
    have hcallback : e.callback w (.task write) = e.onWriteComplete w := by simp [callback, htasks]
    have hchannel : w.channel_ = e.channel_ := by rw [hrun, Conn.runTask]
    rw [hcallback, onWriteComplete, hchannel] at hw' he'
    cases hreading : e.channel_.isReading with
    | true =>
      rw [hreading, if_pos rfl] at hw' he'
      cases hw'
      subst he' hrun
      exact .completed htasks hreading
    | false =>
      rw [hreading, if_neg (by simp)] at hw' he'
      rw [exec_call hw'] at he'
      subst he' hrun
      exact .resume htasks hreading
  | highWaterMark len =>
    have hcallback : e.callback w (.task write) = e.onHighWaterMark := by simp [callback, htasks]
    rw [hcallback, onHighWaterMark] at hw' he'
    rw [exec_call hw'] at he'
    subst he' hrun
    exact .stop htasks
  | sendInLoop _ | shutdownInLoop | forceCloseInLoop | stopRead | startRead | other =>
    exact hplain (by simp [callback, htasks]) rfl

theorem step_moves {e e' : EchoServer} {l : EchoLabel} (hstep : e.step l = some e') : Moves e l e' := by
  obtain ⟨w, w', hw, hw', he'⟩ := step_cases hstep
  cases l with
  | poll revents =>
    cases hw'
    subst he'
    exact .poll (exec_one hw)
  | dispatch read write header body =>
    have hw := exec_one hw
    simp only [callback] at hw' he'
    split at hw'
    · rename_i hmessage
      rw [if_pos hmessage] at he'
      subst he'
      exact .message hw hmessage hw'
    · rename_i hmessage
      rw [if_neg hmessage] at he'
      split at hw'
      · rename_i hcloses
        rw [if_pos hcloses] at he'
        unfold closeConnection at hw' he'
        split at hw'
        · rename_i hfirst
          rw [if_pos hfirst] at he'
          cases hw'
          subst he'
          exact .close hw hcloses hfirst
        · rename_i hagain
          rw [if_neg hagain] at he'
          cases hw'
          subst he'
          exact .abort hw hcloses hagain
      · rename_i hcloses
        rw [if_neg hcloses] at he'
        cases hw'
        subst he'
        exact .dispatch hw (Nat.le_of_not_lt hmessage) (Nat.le_of_not_lt hcloses)
  | swap =>
    cases hw'
    subst he'
    exact .swap (exec_one hw)
  | task write => exact task_moves (exec_one hw) hw' he'
  | endTasks =>
    cases hw'
    subst he'
    exact .endTasks (exec_one hw)
  | tick elapsed =>
    cases hw
    cases hw'
    subst he'
    exact .tick
  | timeout =>
    cases hw
    simp only [callback, onTimeout] at hw' he'
    cases hexpiry : e.connections_ with
    | none =>
      rw [hexpiry] at hw' he'
      cases hw'
      subst he'
      exact .keep (by simp [hexpiry])
    | some expiry =>
      rw [hexpiry] at hw' he'
      dsimp only at hw' he'
      split at hw'
      · rename_i hpast
        rw [if_pos hpast] at he'
        rw [exec_call hw'] at he'
        subst he'
        exact .expire hexpiry hpast
      · rename_i hpast
        rw [if_neg hpast] at he'
        cases hw'
        subst he'
        refine .keep fun other hother => ?_
        rw [hexpiry, Option.some.injEq] at hother
        rw [← hother]
        exact not_le.mp hpast
  | pushOther =>
    cases hw'
    subst he'
    exact .pushOther (exec_one hw)

end mudong.ev.EchoServer
