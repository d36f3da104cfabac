import Mudong.EchoServer.Moves

namespace mudong.ev

/-- The tasks that the loop thread queues when nobody else uses the connection. -/
def Task.isOwn : Task → Bool
  | .writeComplete => true
  | .highWaterMark _ => true
  | .forceCloseInLoop => true
  | .other => true
  | _ => false

/-- The steps of the loop thread after the callbacks have been set. -/
def Label.inLoop : Label → Bool
  | .setWriteCompleteCallback _ => false
  | .setHighWaterMarkCallback _ _ => false
  | .start _ _ => false
  | .advance _ => false
  | _ => true

theorem Label.setsCallback_of_inLoop {l : Label} (hl : l.inLoop = true) : l.setsCallback = false := by
  cases l <;> first | rfl | cases hl

namespace Conn

theorem own_push {c c' : Conn} {task : Task} (htask : task.isOwn = true)
    (hpending : c'.pendingTasks_ = c.pendingTasks_ ++ [task]) (h : ∀ task ∈ c.pendingTasks_, task.isOwn = true) :
    ∀ task ∈ c'.pendingTasks_, task.isOwn = true := by
  rw [hpending, List.forall_mem_append, List.forall_mem_singleton]
  exact ⟨h, htask⟩

theorem own_rule : LoopRule fun c c' =>
    (∀ task ∈ c.pendingTasks_, task.isOwn = true) → ∀ task ∈ c'.pendingTasks_, task.isOwn = true where
  refl _ h := h
  trans h h' := h' ∘ h
  record _ _ _ _ _ h := h
  enableWrite _ h := h
  disableWrite _ h := h
  notice c task htask := by
    refine own_push ?_ (EventLoop.queueInLoop_pendingTasks_ ..)
    cases task <;> first | rfl | cases htask
  history _ _ _ _ _ _ _ _ h := h
  disableRead _ h := h
  disableAll _ h := h
  forceCloses _ := own_push rfl (EventLoop.queueInLoop_pendingTasks_ ..)

end Conn

namespace World

/-- What holds of the connection while the loop thread alone uses it. -/
structure Steady (w : World) : Prop where
  watched : w.Watched 1024
  idle : w.phase ≠ .running → w.tasks = []
  tasks : ∀ task ∈ w.tasks, task.isOwn = true
  pending : ∀ task ∈ w.pendingTasks_, task.isOwn = true

theorem Steady.step {w w' : World} {l : Label} (h : w.Steady) (hl : l.inLoop = true) (hstep : w.step l = some w') :
    w'.Steady := by
  have hwatched := h.watched.step (Label.setsCallback_of_inLoop hl) hstep
  cases step_moves hstep with
  | pollOther hphase => exact ⟨hwatched, fun _ => h.idle (by simp [hphase]), h.tasks, h.pending⟩
  | poll hphase _ => exact ⟨hwatched, fun _ => h.idle (by simp [hphase]), h.tasks, h.pending⟩
  | @dispatch read write stage hphase _ =>
    refine ⟨hwatched, fun _ => h.idle (by simp [hphase]), h.tasks, ?_⟩
    refine Conn.own_rule.runStage w.toConn read write (fun _ _ hown => ?_) h.pending
    rw [(Prod.mk.inj (Conn.handleRead_same w.toConn read)).1]
    exact hown
  | swap _ => exact ⟨hwatched, by simp, h.pending, by simp⟩
  | @task write task rest hphase htasks _ =>
    refine ⟨hwatched, fun hnot => (hnot hphase).elim, fun task hmem => h.tasks task (by simp [htasks, hmem]), ?_⟩
    refine Conn.own_rule.runTask w.toConn write (fun _ hown => ?_) h.pending
    rw [(Prod.mk.inj (Conn.startReadInLoop_same w.toConn)).1]
    exact hown
  | endTasks _ htasks => exact ⟨hwatched, fun _ => htasks, h.tasks, h.pending⟩
  | @call api write _ _ =>
    refine ⟨hwatched, h.idle, h.tasks, ?_⟩
    refine Conn.own_rule.callInLoop w.toConn write (fun _ hown => ?_) h.pending
    rw [(Prod.mk.inj (Conn.startReadInLoop_same w.toConn)).1]
    exact hown
  | useInput _ => exact ⟨hwatched, h.idle, h.tasks, h.pending⟩
  | pushOther => exact ⟨hwatched, h.idle, h.tasks, Conn.own_push rfl rfl h.pending⟩
  | _ => cases hl

theorem Steady.run {w w' : World} {labels : List Label} (h : w.Steady) (hlabels : ∀ l ∈ labels, l.inLoop = true)
    (hrun : Run.exec World.step w labels = some w') : w'.Steady :=
  Run.exec_invariant (C := fun _ l => l.inLoop = true) (fun _ _ _ h hl hstep => h.step hl hstep) h
    (.of_labels hlabels) hrun

end World

namespace EchoServer

theorem begins_inLoop {l : EchoLabel} : ∀ m ∈ begins l, m.inLoop = true := by
  cases l <;> simp [begins, Label.inLoop]

theorem callback_inLoop (e : EchoServer) (w : World) (l : EchoLabel) :
    ∀ m ∈ (e.callback w l).1, m.inLoop = true := by
  cases l with
  | dispatch read write header body =>
    simp only [callback]
    split
    · simp [onMessage, Label.inLoop]
    · split <;> simp
  | task write =>
    simp only [callback]
    split
    · unfold onWriteComplete
      split <;> simp [Label.inLoop]
    · simp [onHighWaterMark, Label.inLoop]
    · split <;> simp
  | timeout =>
    simp only [callback, onTimeout]
    split
    · split <;> simp [Label.inLoop]
    · simp
  | _ => simp [callback]

/-- The steps of the connection that a step of the server is made of. -/
def worldLabels (e : EchoServer) (l : EchoLabel) : List Label :=
  begins l ++ (Run.exec World.step e.toWorld (begins l)).elim [] fun w => (e.callback w l).1

theorem worldLabels_inLoop (e : EchoServer) (l : EchoLabel) : ∀ m ∈ worldLabels e l, m.inLoop = true := by
  refine List.forall_mem_append.mpr ⟨begins_inLoop, ?_⟩
  cases Run.exec World.step e.toWorld (begins l) with
  | none => simp
  | some w => exact callback_inLoop e w l

theorem step_world {e e' : EchoServer} {l : EchoLabel} (hstep : e.step l = some e') :
    Run.exec World.step e.toWorld (worldLabels e l) = some e'.toWorld := by
  obtain ⟨w, w', hw, hw', rfl⟩ := step_cases hstep
  rw [worldLabels, hw]
  exact Run.exec_append_eq_some.mpr ⟨w, hw, hw'⟩

section

variable {timeout_ : Nanoseconds} {tid others wakeups : Nat} {now : Timestamp} {e : EchoServer} {ls : List EchoLabel}

/-- The connection as the server finds it has been set up by steps of its own. -/
theorem init_world (timeout_ : Nanoseconds) (tid : Nat) (now : Timestamp) (others wakeups : Nat) :
    Run.exec World.step (World.established others wakeups)
      [.setWriteCompleteCallback true, .setHighWaterMarkCallback true 1024] =
        some (init timeout_ tid now others wakeups).toWorld := rfl

/-- A run of the server is a run of its connection. -/
theorem run_world (hrun : Run.exec step (init timeout_ tid now others wakeups) ls = some e) :
    Run.exec World.step (World.established others wakeups)
      ([.setWriteCompleteCallback true, .setHighWaterMarkCallback true 1024] ++
        Run.trace step worldLabels (init timeout_ tid now others wakeups) ls) = some e.toWorld := by
  rw [Run.exec_append (init_world timeout_ tid now others wakeups)]
  exact Run.exec_view toWorld worldLabels (fun _ _ _ hstep => step_world hstep) hrun

theorem init_steady (timeout_ : Nanoseconds) (tid : Nat) (now : Timestamp) (others wakeups : Nat) :
    (init timeout_ tid now others wakeups).toWorld.Steady := by
  have hset := init_world timeout_ tid now others wakeups
  refine ⟨⟨?_, World.run_genuine hset, rfl⟩, fun _ => rfl, by simp [init, World.established, World.constructed], ?_⟩
  · exact Run.exec_preserves (fun _ _ _ hinv hstep => hinv.step hstep) (World.established_inv others wakeups) hset
  · intro task htask
    have hother : task = .other := List.eq_of_mem_replicate (n := others) htask
    rw [hother]
    rfl

theorem steady_step {e e' : EchoServer} {l : EchoLabel} (h : e.toWorld.Steady) (hstep : e.step l = some e') :
    e'.toWorld.Steady :=
  h.run (worldLabels_inLoop e l) (step_world hstep)

end

end EchoServer

end mudong.ev
