import Mudong.TcpConnection.Notices

namespace mudong.ev

/-- The step sets one of the callbacks about the output, or the mark. -/
def Label.setsCallback : Label → Bool
  | .setWriteCompleteCallback _ => true
  | .setHighWaterMarkCallback _ _ => true
  | _ => false

def Task.isHighWater : Task → Bool
  | .highWaterMark _ => true
  | _ => false

namespace Conn

/-- The callbacks about the output, with the mark. -/
def callbacks (c : Conn) : Bool × Bool × Nat :=
  (c.writeCompleteCallback_, c.highWaterMarkCallback_, c.highWaterMark_)

theorem callbacks_rule : LoopRule fun c c' => c'.callbacks = c.callbacks where
  refl _ := rfl
  trans h h' := h'.trans h
  record _ _ _ _ _ := rfl
  enableWrite _ := rfl
  disableWrite _ := rfl
  notice _ _ _ := rfl
  history _ _ _ _ _ _ _ _ := rfl
  disableRead _ := rfl
  disableAll _ := rfl
  forceCloses _ := rfl

theorem startReadInLoop_callbacks (c : Conn) : c.startReadInLoop.callbacks = c.callbacks := by
  unfold startReadInLoop
  split <;> rfl

theorem handleRead_callbacks (c : Conn) (read : Buffer.ReadvResult) : (c.handleRead read).callbacks = c.callbacks := by
  unfold handleRead
  dsimp only
  split
  · rfl
  · split <;> rfl

end Conn

namespace World

theorem step_callbacks {w w' : World} {l : Label} (hfixed : l.setsCallback = false) (hstep : w.step l = some w') :
    w'.callbacks = w.callbacks := by
  cases step_moves hstep with
  | dispatch hphase hfits => exact Conn.callbacks_rule.runStage w.toConn _ _ fun _ _ => Conn.handleRead_callbacks ..
  | task hphase htasks hfits => exact Conn.callbacks_rule.runTask w.toConn _ fun _ => Conn.startReadInLoop_callbacks ..
  | call hphase hfits => exact Conn.callbacks_rule.callInLoop w.toConn _ fun _ => Conn.startReadInLoop_callbacks ..
  | setWriteCompleteCallback hphase => cases hfixed
  | setHighWaterMarkCallback hphase => cases hfixed
  | _ => rfl

/-- The tasks that the steps of a run queue. -/
def queues (w : World) (l : Label) : List Task := (w.step l).elim [] w.newTasks

theorem queues_eq {w w' : World} {l : Label} (hstep : w.step l = some w') : w.queues l = w.newTasks w' := by
  rw [queues, hstep, Option.elim_some]

/-- The invariant of a run in which both callbacks are set and the mark is `mark`. -/
structure Watched (mark : Nat) (w : World) : Prop where
  inv : w.Inv
  genuine : w.Genuine
  callbacks : w.callbacks = (true, true, mark)

theorem Watched.step {mark : Nat} {w w' : World} {l : Label} (hinv : w.Watched mark) (hfixed : l.setsCallback = false)
    (hstep : w.step l = some w') : w'.Watched mark :=
  ⟨hinv.inv.step hstep, hinv.genuine.step hstep, (step_callbacks hfixed hstep).trans hinv.callbacks⟩

/-- The notices that a step of an open connection queues, in terms of its backlog alone. -/
theorem Watched.notices {mark : Nat} {w w' : World} {l : Label} (hinv : w.Watched mark) (hopen : w.closes = 0)
    (hstep : w.step l = some w') : (w.newTasks w').filter Task.isNotice =
      (if w.wrote l = true ∧ w'.backlog = 0 then [.writeComplete] else []) ++
        if w.backlog < mark ∧ mark ≤ w'.backlog then [.highWaterMark w'.backlog] else [] := by
  have hcallbacks := hinv.callbacks
  simp only [Conn.callbacks, Prod.mk.injEq] at hcallbacks
  rw [(step_reports (hinv.inv.opened hopen) hinv.genuine hstep).notices, Conn.notices]
  simp only [hcallbacks, true_and]

theorem Watched.highWater {mark : Nat} {w w' : World} {l : Label} (hinv : w.Watched mark) (hopen : w.closes = 0)
    (hstep : w.step l = some w') : (w.newTasks w').filter Task.isHighWater =
      if w.backlog < mark ∧ mark ≤ w'.backlog then [.highWaterMark w'.backlog] else [] := by
  have hfilter : (w.newTasks w').filter Task.isHighWater =
      ((w.newTasks w').filter Task.isNotice).filter Task.isHighWater := by
    rw [List.filter_filter]
    refine List.filter_congr fun task _ => ?_
    cases task <;> rfl
  rw [hfilter, hinv.notices hopen hstep, List.filter_append]
  have hcomplete : (if w.wrote l = true ∧ w'.backlog = 0 then [Task.writeComplete] else []).filter Task.isHighWater =
      [] := by
    split <;> rfl
  rw [hcomplete, List.nil_append]
  split <;> rfl

/-- A step that queues a high-water task takes the backlog from below the mark to it or above. -/
theorem Watched.crosses {mark n : Nat} {w w' : World} {l : Label} (hinv : w.Watched mark) (hopen : w.closes = 0)
    (hstep : w.step l = some w') (hqueued : .highWaterMark n ∈ w.newTasks w') :
    w.backlog < mark ∧ mark ≤ w'.backlog := by
  have hmem : Task.highWaterMark n ∈ (w.newTasks w').filter Task.isHighWater := List.mem_filter.mpr ⟨hqueued, rfl⟩
  rw [hinv.highWater hopen hstep] at hmem
  split at hmem
  · assumption
  · cases hmem

theorem Watched.run {mark : Nat} {w u : World} {labels : List Label} (hinv : w.Watched mark)
    (hfixed : ∀ l ∈ labels, l.setsCallback = false) (hrun : Run.exec World.step w labels = some u) : u.Watched mark :=
  Run.exec_invariant (C := fun _ l => l.setsCallback = false) (fun _ _ _ hinv hl hstep => hinv.step hl hstep) hinv
    (.of_labels hfixed) hrun

theorem run_closes_le {w u : World} {labels : List Label} (hrun : Run.exec step w labels = some u) :
    w.closes ≤ u.closes :=
  Run.exec_preserves (I := fun u => w.closes ≤ u.closes) (fun _ _ _ hle hstep => hle.trans (step_closes_le hstep))
    (Nat.le_refl _) hrun

/-- Whenever there is no backlog, a write-complete task has followed the latest high-water task. -/
def Answered (emitted : List Task) (w : World) : Prop :=
  ∀ n earlier later, emitted = earlier ++ .highWaterMark n :: later → (∀ task ∈ later, task.isHighWater = false) →
    w.backlog = 0 → .writeComplete ∈ later

theorem Answered.step {mark : Nat} {emitted : List Task} {w w' : World} {l : Label} (h : Answered emitted w)
    (hinv : w.Watched mark) (hopen : w.closes = 0) (hstep : w.step l = some w') :
    Answered (emitted ++ w.newTasks w') w' := by
  intro n earlier later hsplit hlatest hempty
  have hnone : .highWaterMark n ∉ w.newTasks w' := by
    intro hqueued
    have hcrosses := hinv.crosses hopen hstep hqueued
    omega
  obtain ⟨tasks, _, hnew⟩ | ⟨tasks, hemitted, hlater⟩ := List.append_eq_append_iff.mp hsplit
  · exact (hnone (by simp [hnew])).elim
  cases tasks with
  | nil =>
    rw [List.nil_append] at hlater
    exact (hnone (by simp [← hlater])).elim
  | cons task tasks =>
    obtain ⟨rfl, rfl⟩ := List.cons.inj hlater
    by_cases hwas : w.backlog = 0
    · exact List.mem_append_left _ (h n earlier tasks hemitted (fun t ht => hlatest t (by simp [ht])) hwas)
    -- only a write that drains the backlog empties it
    · have hreports := step_reports (hinv.inv.opened hopen) hinv.genuine hstep
      have hwrote := (hreports.falls (by omega)).2
      have hmem : Task.writeComplete ∈ (w.newTasks w').filter Task.isNotice := by
        rw [hinv.notices hopen hstep, if_pos ⟨hwrote, hempty⟩]
        simp
      exact List.mem_append_right _ (List.mem_filter.mp hmem).1

theorem Watched.answered {mark : Nat} {v w : World} {labels : List Label} (hv : v.Watched mark)
    (hfixed : ∀ l ∈ labels, l.setsCallback = false) (hrun : Run.exec World.step v labels = some w)
    (hopen : w.closes = 0) : Answered (Run.trace World.step queues v labels) w := by
  have hrunning : w.Watched mark ∧ (w.closes = 0 → Answered ([] ++ Run.trace World.step queues v labels) w) := by
    have hnothing : Answered [] v := by
      intro n earlier later hnil
      simp at hnil
    refine Run.exec_invariant_trace_along (C := fun _ l => l.setsCallback = false)
      (I := fun emitted w => w.Watched mark ∧ (w.closes = 0 → Answered emitted w)) ?_ ⟨hv, fun _ => hnothing⟩
      (.of_labels hfixed) hrun
    intro emitted s l s' ⟨hs, hanswered⟩ hl hstep
    refine ⟨hs.step hl hstep, fun hclosed => ?_⟩
    have hwas : s.closes = 0 := Nat.le_zero.mp (hclosed ▸ step_closes_le hstep)
    rw [queues_eq hstep]
    exact (hanswered hwas).step hs hwas hstep
  exact hrunning.2 hopen

/-- With both callbacks set and a fixed mark, a high-water task is queued exactly by the steps of `sendInLoop` that take
the backlog from below the mark to it or above, with the new backlog; between two of them a `handleWrite` has brought
the backlog below the mark; and whenever the backlog is empty, a write-complete task has followed the latest of
them. -/
theorem high_water_tasks_mark_crossings {others wakeups : Nat} {before labels : List Label} {v w : World}
    (hbefore : Run.exec step (established others wakeups) before = some v)
    (hset : v.writeCompleteCallback_ = true ∧ v.highWaterMarkCallback_ = true)
    (hfixed : ∀ l ∈ labels, l.setsCallback = false) (hrun : Run.exec step v labels = some w) (hopen : w.closes = 0) :
    (∀ l w', w.step l = some w' → (w.newTasks w').filter Task.isHighWater =
      if w.sendsInLoop l = true ∧ w.backlog < v.highWaterMark_ ∧ v.highWaterMark_ ≤ w'.backlog then
        [.highWaterMark w'.backlog]
      else []) ∧
    (∀ first l mid t u w' l' n n', labels = first ++ l :: mid → Run.exec step v first = some t → t.step l = some u →
      .highWaterMark n ∈ t.newTasks u → w.step l' = some w' → .highWaterMark n' ∈ w.newTasks w' →
      ∃ earlier k later s s', mid = earlier ++ k :: later ∧ Run.exec step u earlier = some s ∧ s.step k = some s' ∧
        s.handlesWrite k = true ∧ v.highWaterMark_ ≤ s.backlog ∧ s'.backlog < v.highWaterMark_) ∧
    ∀ n earlier later, Run.trace step queues v labels = earlier ++ .highWaterMark n :: later →
      (∀ task ∈ later, task.isHighWater = false) → w.backlog = 0 → .writeComplete ∈ later := by
  have hv : v.Watched v.highWaterMark_ := by
    have hinv : v.Inv :=
      Run.exec_preserves (fun _ _ _ hinv hstep => hinv.step hstep) (established_inv others wakeups) hbefore
    exact ⟨hinv, run_genuine hbefore, by simp [Conn.callbacks, hset]⟩
  have hw := hv.run hfixed hrun
  refine ⟨?_, ?_, ?_⟩
  · intro l w' hstep
    have hrises := (step_reports (hw.inv.opened hopen) hw.genuine hstep).rises
    rw [hw.highWater hopen hstep]
    refine if_congr ⟨fun h => ⟨hrises (by omega), h⟩, And.right⟩ rfl rfl
  · rintro first l mid t u w' l' n n' rfl hfirst hl hn hstep hn'
    rw [Run.exec_append hfirst] at hrun
    obtain ⟨u', hu', hmid⟩ := Run.exec_cons_eq_some.mp hrun
    obtain rfl : u = u' := Option.some.inj (hl.symm.trans hu')
    have hu : u.closes = 0 := Nat.le_zero.mp (hopen ▸ run_closes_le hmid)
    have ht := hv.run (fun m hm => hfixed m (by simp [hm])) hfirst
    have hup := ht.crosses (Nat.le_zero.mp (hu ▸ step_closes_le hl)) hl hn
    have hdown := hw.crosses hopen hstep hn'
    obtain ⟨earlier, k, later, s, s', rfl, hs, hk, hle, hlt⟩ :=
      Run.exec_loses (p := fun s => v.highWaterMark_ ≤ s.backlog) hup.2 (by omega) hmid
    have hswatched := (ht.step (hfixed l (by simp)) hl).run (fun m hm => hfixed m (by simp [hm])) hs
    have hsopen : s.closes = 0 := by
      rw [Run.exec_append hs] at hmid
      exact Nat.le_zero.mp (hopen ▸ run_closes_le hmid)
    have hfalls := (step_reports (hswatched.inv.opened hsopen) hswatched.genuine hk).falls
    exact ⟨earlier, k, later, s, s', rfl, hs, hk, (hfalls (by omega)).1, hle, by omega⟩
  · exact hv.answered hfixed hrun hopen

/-- A send above the mark and the drain after it: the high-water task is answered, and the next send above the mark is
announced again. -/
theorem high_water_tasks_mark_crossings_twice : ∃ v w w' : World,
    Run.exec step (established 0 0) [.setWriteCompleteCallback true, .setHighWaterMarkCallback true 2] = some v ∧
    Run.exec step v [.call (.send (.chars [1, 2, 3])) (.failed EAGAIN), .swap, .task (.accepted 0), .endTasks,
      .poll (some EPOLLOUT), .dispatch (.failed 0) (.accepted 0), .dispatch (.failed 0) (.accepted 0),
      .dispatch (.failed 0) (.accepted 0), .dispatch (.failed 0) (.accepted 3)] = some w ∧
    w.pendingTasks_ = [.writeComplete] ∧ w.backlog = 0 ∧
    w.step (.call (.send (.chars [4, 5])) (.failed EAGAIN)) = some w' ∧
    (w.newTasks w').filter Task.isHighWater = [.highWaterMark 2] := by
  obtain ⟨v, hv, ⟨hset, hmark⟩, hnext⟩ := Run.Reaches.exists
    (by decide +kernel : Run.Reaches step (established 0 0)
      [.setWriteCompleteCallback true, .setHighWaterMarkCallback true 2]
      (fun v => ((v.writeCompleteCallback_ = true ∧ v.highWaterMarkCallback_ = true) ∧ v.highWaterMark_ = 2) ∧
        Run.Reaches step v [.call (.send (.chars [1, 2, 3])) (.failed EAGAIN), .swap, .task (.accepted 0), .endTasks,
          .poll (some EPOLLOUT), .dispatch (.failed 0) (.accepted 0), .dispatch (.failed 0) (.accepted 0),
          .dispatch (.failed 0) (.accepted 0), .dispatch (.failed 0) (.accepted 3)] fun w =>
          (w.closes = 0 ∧ w.pendingTasks_ = [.writeComplete] ∧ w.backlog = 0) ∧
          w.sendsInLoop (.call (.send (.chars [4, 5])) (.failed EAGAIN)) = true ∧
          Run.Reaches step w [.call (.send (.chars [4, 5])) (.failed EAGAIN)] fun w' => w'.backlog = 2))
  obtain ⟨w, hw, ⟨hopen, hpending, hempty⟩, hsends, hlast⟩ := hnext.exists
  obtain ⟨w', hw', hbacklog⟩ := hlast.exists
  obtain ⟨u, hu, huw⟩ := Run.exec_cons_eq_some.mp hw'
  cases huw
  refine ⟨v, w, w', hv, hw, hpending, hempty, hu, ?_⟩
  rw [(high_water_tasks_mark_crossings hv hset (by decide) hw hopen).1 _ w' hu, hmark, hbacklog, hempty,
    if_pos ⟨hsends, by decide, by decide⟩]

end World

end mudong.ev
