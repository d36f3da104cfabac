import Mudong.TcpConnection.Notices
import Mudong.TcpServerSingle.Referred

namespace mudong.ev

namespace Conn

/-- What the connection queues by itself holds a `TcpConnectionPtr`. -/
def Captures (c c' : Conn) : Prop := ∀ task ∈ c'.pendingTasks_, task ∈ c.pendingTasks_ ∨ task.captures = true

variable {c d e : Conn}

theorem Captures.of_same (h : d.pendingTasks_ = c.pendingTasks_) : Captures c d := by
  intro task htask
  rw [h] at htask
  exact .inl htask

theorem Captures.trans (h : Captures c d) (h' : Captures d e) : Captures c e := by
  intro task htask
  obtain hmem | hcaptures := h' task htask
  · exact h task hmem
  · exact .inr hcaptures

theorem queueInLoop_captures (c : Conn) {task : Task} (htask : task.captures = true) :
    Captures c (c.queueInLoop task) := by
  intro task' hmem
  rw [queueInLoop, EventLoop.queueInLoop_pendingTasks_] at hmem
  obtain hmem | hmem := List.mem_append.mp hmem
  · exact .inl hmem
  · rw [List.mem_singleton.mp hmem]
    exact .inr htask

theorem captures_rule : LoopRule Captures where
  refl _ := .of_same rfl
  trans := .trans
  record _ _ _ _ _ := .of_same rfl
  enableWrite _ := .of_same rfl
  disableWrite _ := .of_same rfl
  notice c task htask := queueInLoop_captures c (by cases task <;> simp_all [Task.isNotice, Task.captures])
  history _ _ _ _ _ _ _ _ := .of_same rfl
  disableRead _ := .of_same rfl
  disableAll _ := .of_same rfl
  forceCloses c := queueInLoop_captures c rfl

theorem connectEstablished_captures (c : Conn) : Captures c c.connectEstablished := .of_same rfl

/-- In the loop thread `startRead()` does not queue anything, and neither does `stopRead()`. -/
theorem startReadInLoop_captures (c : Conn) : Captures c c.startReadInLoop :=
  .of_same (congrArg Prod.fst (startReadInLoop_same c))

theorem runStage_captures (c : Conn) (read : Buffer.ReadvResult) (write : WriteResult) (stage : Stage) :
    Captures c (c.runStage read write stage) :=
  captures_rule.runStage c read write fun _ _ => .of_same (congrArg Prod.fst (handleRead_same c read))

theorem runTask_captures (c : Conn) (result : WriteResult) (task : Task) : Captures c (c.runTask result task) :=
  captures_rule.runTask c result fun _ => startReadInLoop_captures c

theorem callInLoop_captures (c : Conn) (result : WriteResult) (api : Api) : Captures c (c.callInLoop result api) :=
  captures_rule.callInLoop c result fun _ => startReadInLoop_captures c

end Conn

namespace ServerWorld

variable {s s' : ServerWorld} {l : ServerStep} {ptr : Nat}

/-- The tasks that have not been run. -/
def waiting (s : ServerWorld) : List (Nat × Task) := s.tasks ++ s.pendingTasks_

/-- The world without the references that a step gives up: the guard of a dispatch at its end, the closures of the tasks
that have been run, the set of a server that is destroyed, and the `TcpConnectionPtr` that another thread drops. The end
of the loop is left out, since no task waits any more after it. -/
def released (s : ServerWorld) : ServerStep → ServerWorld
  | .dispatch _ _ =>
    match s.phase with
    | .handling (some (_, .onWrite)) => { s with phase := .handling none }
    | _ => s
  | .endTasks => { s with executed := [] }
  | .destroyServer => { s with connections_ := [] }
  | .drop thread ptr => { s with held := s.held.erase (thread, ptr) }
  | _ => s

/-- No `stopRead()` or `startRead()` waits for a connection whose last reference is given up. -/
def KeepsWaited (s : ServerWorld) (l : ServerStep) : Prop :=
  ∀ t ∈ s.waiting, t.2.captures = false → t.1 ∈ (s.released l).references

instance decidableKeepsWaited (s : ServerWorld) (l : ServerStep) : Decidable (s.KeepsWaited l) :=
  inferInstanceAs (Decidable (∀ t ∈ s.waiting, t.2.captures = false → t.1 ∈ (s.released l).references))

theorem mem_references_of_waiting {t : Nat × Task} (hmem : t ∈ s.waiting) (hcaptures : t.2.captures = true) :
    t.1 ∈ s.references := by
  refine mem_references.mpr (.inr (.inr (.inl ⟨t.2, ?_, hcaptures⟩)))
  simp only [waiting, closures, List.mem_append] at hmem ⊢
  tauto

/-- A connection that is closed by its own function leaves the set only. -/
theorem Acts.retains {conn : SharedConn} {c : Conn} (h : s.Acts ptr conn c s') :
    Adds (fun i => i = ptr ∧ c.closes ≠ 0) s' s := by
  have hclosures : ∀ t ∈ s.closures, t ∈ (s.update ptr conn c).closures := by
    intro t ht
    rw [update_closures]
    exact List.mem_append_left _ ht
  cases h with
  | stays hcloses => exact ⟨fun _ => .inl, fun _ => .inl, fun t ht => .inl (hclosures t ht), fun _ => .inl⟩
  | leaves hcloses hmem =>
    refine ⟨?_, fun _ => .inl, fun t ht => .inl (hclosures t ht), fun _ => .inl⟩
    intro i hi
    by_cases hptr : i = ptr
    · exact .inr ⟨hptr, hcloses⟩
    · exact .inl ((List.mem_erase_of_ne hptr).mpr hi)

/-- The guard is given up after the last callback, which closes nothing. -/
theorem dispatch_retains {read : Buffer.ReadvResult} {write : WriteResult} {stage : Stage} {conn : SharedConn}
    (hphase : s.phase = .handling (some (ptr, stage)))
    (hacts : s.Acts ptr conn ((s.view conn).runStage read write stage) s') {phase : ServerPhase}
    (hnext : phase = .handling (stage.next.map fun stage => (ptr, stage))) :
    Adds (· ∈ { s' with phase }.references) { s' with phase } (s.released (.dispatch read write)) := by
  have hretains := hacts.retains
  by_cases hlast : stage = .onWrite
  · subst hlast
    have hcloses : ((s.view conn).runStage read write .onWrite).closes = 0 := (Conn.runStage_closesIf _ _ _ _).closes
    have hreleased : s.released (.dispatch read write) = { s with phase := .handling none } := by
      simp [released, hphase]
    have hretains := hretains.imp (q := (· ∈ { s' with phase }.references)) (fun i hi => (hi.2 hcloses).elim)
    rw [hreleased]
    refine ⟨hretains.set, ?_, hretains.closures, hretains.held⟩
    simp [ServerPhase.guard]
  · have hguard : phase.guard = [ptr] := by
      rw [hnext]
      cases stage <;> first | rfl | exact (hlast rfl).elim
    have hreleased : s.released (.dispatch read write) = s := by
      simp only [released, hphase]
      cases stage <;> first | rfl | exact (hlast rfl).elim
    have hretains := hretains.imp (q := (· ∈ { s' with phase }.references))
      (fun i hi => mem_references.mpr (.inr (.inl (by rw [hi.1]; simp [hguard]))))
    rw [hreleased]
    refine ⟨hretains.set, ?_, hretains.closures, hretains.held⟩
    intro i hi
    rw [hphase] at hi
    rw [hguard]
    exact .inl hi

/-- A task that closes its connection is a `forceCloseInLoop`, whose closure still refers to it. -/
theorem task_retains {write : WriteResult} {task : Task} {rest : List (Nat × Task)} {conn : SharedConn}
    (htasks : s.tasks = (ptr, task) :: rest)
    (hacts : (s.taken (ptr, task) rest).Acts ptr conn (((s.taken (ptr, task) rest).view conn).runTask write task) s') :
    Adds (· ∈ s'.references) s' s := by
  have hretains : Adds (· ∈ s'.references) s' (s.taken (ptr, task) rest) := by
    refine hacts.retains.imp ?_
    rintro i ⟨rfl, hcloses⟩
    have hcount := (Conn.runTask_closesIf ((s.taken (i, task) rest).view conn) write task).closes
    cases hclosing : ((s.taken (i, task) rest).view conn).taskCloses task with
    | false =>
      rw [hclosing] at hcount
      exact (hcloses hcount).elim
    | true =>
      simp only [Conn.taskCloses, Bool.and_eq_true, beq_iff_eq] at hclosing
      obtain ⟨rfl, _⟩ := hclosing
      have hexecuted : (i, Task.forceCloseInLoop) ∈ s'.executed := by
        cases hacts <;> exact List.mem_append_right _ (List.mem_singleton_self _)
      refine mem_references.mpr (.inr (.inr (.inl ⟨.forceCloseInLoop, ?_, rfl⟩)))
      exact List.mem_append_left _ (List.mem_append_right _ hexecuted)
  exact ⟨hretains.set, hretains.guard, fun t ht => hretains.closures t ((taken_closures htasks).mpr ht), hretains.held⟩

/-- A step gives up no other references. -/
theorem Moves.retains (h : s.Moves l s') (hs : s.Referred) (hl : l ≠ .destroyLoop) :
    Adds (· ∈ s'.references) s' (s.released l) := by
  cases h with
  | poll hphase hnodup hbatch =>
    refine ⟨fun _ => .inl, ?_, fun _ => .inl, fun _ => .inl⟩
    simp [released, hphase, ServerPhase.guard]
  | accept hphase hfresh =>
    refine ⟨fun _ hi => .inl (List.mem_append_left _ hi), fun _ => .inl, ?_, fun _ => .inl⟩
    intro t ht
    rw [newConnection, update_closures]
    exact .inl (List.mem_append_left _ ht)
  | take hphase hbatch hconn =>
    refine ⟨fun _ => .inl, ?_, fun _ => .inl, fun _ => .inl⟩
    simp [released, hphase, ServerPhase.guard]
  | dispatch hphase hconn hacts =>
    exact dispatch_retains hphase hacts rfl
  | swap hphase hbatch =>
    refine ⟨fun _ => .inl, ?_, ?_, fun _ => .inl⟩
    · simp [released, hphase, ServerPhase.guard]
    · intro t ht
      simp only [closures, released, List.mem_append, (hs.idle (by simp [hphase])).1] at ht ⊢
      tauto
  | task hphase htasks hconn hacts => exact task_retains htasks hacts
  | misuses hphase htasks hconn =>
    exact ⟨fun _ => .inl, fun _ => .inl, fun t ht => .inl ((taken_closures htasks).mpr ht), fun _ => .inl⟩
  | endTasks hphase htasks =>
    refine ⟨fun _ => .inl, ?_, fun _ => .inl, fun _ => .inl⟩
    simp [released, hphase, ServerPhase.guard]
  | call huser hconn hacts =>
    refine hacts.retains.imp ?_
    rintro i ⟨_, hcloses⟩
    exact (hcloses (Conn.callInLoop_calm _ _ _).closes).elim
  | exit hphase =>
    refine ⟨fun _ => .inl, ?_, fun _ => .inl, fun _ => .inl⟩
    simp [released, hphase, ServerPhase.guard]
  | destroyServer hphase =>
    refine ⟨fun _ => .inl, ?_, fun _ => .inl, fun _ => .inl⟩
    simp [released, hphase, ServerPhase.guard]
  | destroyLoop hphase => exact (hl rfl).elim
  | hold hconn => exact ⟨fun _ => .inl, fun _ => .inl, fun _ => .inl, fun _ hi => .inl (List.mem_append_left _ hi)⟩
  | push hcall =>
    refine ⟨fun _ => .inl, fun _ => .inl, ?_, fun _ => .inl⟩
    intro t ht
    simp only [closures, setCall, EventLoop.push, ← List.append_assoc]
    exact .inl (List.mem_append_left _ ht)
  | _ => exact ⟨fun _ => .inl, fun _ => .inl, fun _ => .inl, fun _ => .inl⟩

/-- What a function of a connection queues refers to the connection. -/
theorem update_waiting {conn : SharedConn} {c : Conn} (hcaptures : Conn.Captures (s.view conn) c) {t : Nat × Task}
    (hmem : t ∈ (s.update ptr conn c).waiting) : t ∈ s.waiting ∨ t.2.captures = true := by
  simp only [waiting, update, List.mem_append, List.mem_map] at hmem ⊢
  obtain ht | ht | ⟨task, htask, rfl⟩ := hmem
  · exact .inl (.inl ht)
  · exact .inl (.inr ht)
  · obtain hold | hnew := hcaptures task htask
    · cases hold
    · exact .inr hnew

theorem Acts.waiting {conn : SharedConn} {c : Conn} (h : s.Acts ptr conn c s')
    (hcaptures : Conn.Captures (s.view conn) c) {t : Nat × Task} (hmem : t ∈ s'.waiting) : t ∈ s.waiting ∨ t.2.captures = true := by
  cases h with
  | stays hcloses => exact update_waiting hcaptures hmem
  | leaves hcloses hmem' => exact update_waiting hcaptures hmem

theorem taken_waiting {t u : Nat × Task} {rest : List (Nat × Task)} (htasks : s.tasks = t :: rest)
    (hmem : u ∈ (s.taken t rest).waiting) : u ∈ s.waiting := by
  rw [waiting, htasks]
  exact List.mem_cons_of_mem _ hmem

/-- A new task refers to its connection, or the thread that queues it does. -/
theorem Moves.waiting (h : s.Moves l s') (hs : s.Referred) {t : Nat × Task} (hmem : t ∈ s'.waiting) :
    t ∈ s.waiting ∨ t.2.captures = true ∨ t.1 ∈ s'.references := by
  cases h with
  | accept hphase hfresh =>
    rw [newConnection] at hmem
    exact (update_waiting (Conn.connectEstablished_captures _) hmem).imp id .inl
  | dispatch hphase hconn hacts => exact (hacts.waiting (Conn.runStage_captures _ _ _ _) hmem).imp id .inl
  | swap hphase hbatch =>
    simp only [ServerWorld.waiting, List.append_nil] at hmem
    exact .inl (List.mem_append_right _ hmem)
  | task hphase htasks hconn hacts =>
    obtain hold | hnew := hacts.waiting (Conn.runTask_captures _ _ _) hmem
    · exact .inl (taken_waiting htasks hold)
    · exact .inr (.inl hnew)
  | misuses hphase htasks hconn => exact .inl (taken_waiting htasks hmem)
  | call huser hconn hacts => exact (hacts.waiting (Conn.callInLoop_captures _ _ _) hmem).imp id .inl
  | destroyLoop hphase =>
    simp only [ServerWorld.waiting, List.append_nil] at hmem
    exact .inl (List.mem_append_left _ hmem)
  | push hcall =>
    rename_i thread i task
    simp only [ServerWorld.waiting, setCall, EventLoop.push, ← List.append_assoc] at hmem
    obtain hold | hnew := List.mem_append.mp hmem
    · exact .inl hold
    · rw [List.mem_singleton.mp hnew]
      exact .inr (.inr (mem_references.mpr (.inr (.inr (.inr ⟨thread, hs.calling hcall (by simp)⟩)))))
  | _ => exact .inl hmem

/-- Whatever waits still has its connection. -/
theorem Moves.waited (h : s.Moves l s') (hs : s.Referred) (hkeeps : s.KeepsWaited l) {t : Nat × Task}
    (hmem : t ∈ s'.waiting) : t.1 ∈ s'.references := by
  by_cases hl : l = .destroyLoop
  · subst hl
    cases h with
    | destroyLoop hphase =>
      simp [ServerWorld.waiting, (hs.idle (by simp [hphase])).1] at hmem
  · cases hcaptures : t.2.captures with
    | true => exact mem_references_of_waiting hmem hcaptures
    | false =>
      obtain hold | hnew | href := h.waiting hs hmem
      · exact ((h.retains hs hl).references (hkeeps t hold hcaptures)).elim id id
      · cases hcaptures.symm.trans hnew
      · exact href

theorem Moves.misuse (h : s.Moves l s') (hwaits : ∀ t ∈ s.waiting, s.status t.1 ≠ none) : s'.misuses = s.misuses := by
  cases h with
  | dispatch hphase hconn hacts => cases hacts <;> rfl
  | task hphase htasks hconn hacts => cases hacts <;> rfl
  | misuses hphase htasks hconn =>
    rename_i write ptr task rest
    have hmem : (ptr, task) ∈ s.waiting := by
      rw [ServerWorld.waiting, htasks]
      exact List.mem_cons_self
    have hnone : s.status ptr = none := by
      rw [status, hconn]
      rfl
    exact (hwaits (ptr, task) hmem hnone).elim
  | call huser hconn hacts => cases hacts <;> rfl
  | _ => rfl

/-- Every task that waits has its connection, and so has every task that has been run. -/
structure Outlives (s : ServerWorld) : Prop extends s.Shares where
  waits : ∀ t ∈ s.waiting, s.status t.1 ≠ none
  misuses : s.misuses = []

theorem init_outlives (writeCompleteCallback_ : Bool) : (init writeCompleteCallback_).Outlives := by
  refine ⟨init_shares _, ?_, rfl⟩
  intro t ht
  cases ht

theorem Outlives.step (hs : s.Outlives) (hkeeps : s.KeepsWaited l) (hstep : s.step l = some s') : s'.Outlives := by
  have hshares := hs.toShares.step hstep
  refine ⟨hshares, ?_, ?_⟩
  all_goals obtain ⟨acted, hadvance, rfl⟩ := Option.map_eq_some_iff.mp hstep
  · intro t ht
    exact hshares.alive t.1 ((advance_moves hadvance).waited hs.toReferred hkeeps ht)
  · exact ((advance_moves hadvance).misuse hs.waits).trans hs.misuses

/-- No task is run on a destroyed connection, whatever the threads do, as long as no `stopRead()` or `startRead()`
waits for a connection whose last reference is given up. -/
theorem no_task_outlives_connection {writeCompleteCallback_ : Bool} {ls : List ServerStep}
    (hrun : Run.exec step (init writeCompleteCallback_) ls = some s)
    (hkeeps : Run.Along step KeepsWaited (init writeCompleteCallback_) ls) : s.misuses = [] :=
  (Run.exec_invariant (fun _ _ _ hs hkeeps hstep => hs.step hkeeps hstep) (init_outlives _) hkeeps hrun).misuses

/-- Another thread calls `stopRead()` and keeps its pointer until the task has been run, while the peer closes the
connection; the tasks of `send` and `forceClose()` keep the connection themselves. -/
theorem no_task_outlives_held_connection :
    ∃ s, Run.exec step (init true)
        [.poll [], .accept (.accepted 5), .hold 0 0, .hold 1 0, .swap, .endTasks, .start 0 0 .stopRead, .advance 0,
          .advance 0, .start 1 0 (.send (.chars [1, 2])), .advance 1, .advance 1, .start 1 0 .forceClose, .advance 1,
          .advance 1, .advance 1, .drop 1 0, .poll [(5, EPOLLIN)], .take, .dispatch (.filled []) (.accepted 0),
          .dispatch (.filled []) (.accepted 0), .dispatch (.filled []) (.accepted 0),
          .dispatch (.filled []) (.accepted 0), .swap, .task (.accepted 0), .task (.accepted 0), .drop 0 0,
          .task (.accepted 0), .endTasks] = some s ∧
      s.deaths = [(0, .kDisconnected)] ∧ s.misuses = [] := by
  apply Run.Reaches.exists_of (p := fun s => s.deaths = [(0, .kDisconnected)])
  · decide +kernel
  · intro s hrun hdeaths
    exact ⟨hdeaths, no_task_outlives_connection hrun (by decide +kernel)⟩

/-- Another thread drops its pointer after `stopRead()`, and the peer closes the connection before the task is run. -/
theorem stopRead_outlives_connection :
    ∃ s, Run.exec step (init false)
        [.poll [], .accept (.accepted 5), .hold 0 0, .swap, .endTasks, .start 0 0 .stopRead, .advance 0, .advance 0,
          .drop 0 0, .poll [(5, EPOLLIN)], .take, .dispatch (.filled []) (.accepted 0),
          .dispatch (.filled []) (.accepted 0), .dispatch (.filled []) (.accepted 0),
          .dispatch (.filled []) (.accepted 0), .swap, .task (.accepted 0)] = some s ∧
      s.deaths = [(0, .kDisconnected)] ∧ s.misuses = [(0, .stopRead)] := by
  apply Run.Reaches.exists
  decide +kernel

end ServerWorld

end mudong.ev
