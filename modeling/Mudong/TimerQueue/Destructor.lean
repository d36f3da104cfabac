import Mudong.TimerQueue.Ownership

namespace mudong.ev

namespace TimerQueue

/-- The destructor deletes the timers of the set. -/
def destruct (q : TimerQueue) : TimerQueue := q.timers_.foldl (fun q e => q.delete e.second) q

theorem delete_of_live {q : TimerQueue} {timer : Nat} (hlive : q.status timer = .live) :
    (q.delete timer).misuses = q.misuses ∧ (q.delete timer).status = Function.update q.status timer .deleted := by
  rw [delete, access_of_live hlive]
  exact ⟨rfl, rfl⟩

/-- Deleting each of several timers once deletes these and no others, and none of them twice. -/
private theorem deleteAll_spec (entries : List Entry) :
    ∀ q : TimerQueue, (entries.map Entry.second).Nodup → (∀ e ∈ entries, q.status e.second = .live) →
      (entries.foldl (fun q e => q.delete e.second) q).misuses = q.misuses ∧
        ∀ timer, (entries.foldl (fun q e => q.delete e.second) q).status timer =
          if timer ∈ entries.map Entry.second then .deleted else q.status timer := by
  induction entries with
  | nil =>
    intro q _ _
    exact ⟨rfl, fun timer => rfl⟩
  | cons e entries ih =>
    intro q hnodup hlive
    rw [List.map_cons, List.nodup_cons] at hnodup
    obtain ⟨hmisuses, hstatus⟩ := delete_of_live (hlive e List.mem_cons_self)
    have hrest : ∀ f ∈ entries, (q.delete e.second).status f.second = .live := by
      intro f hf
      have hne : f.second ≠ e.second := fun heq => hnodup.1 (heq ▸ List.mem_map_of_mem hf)
      rw [hstatus, Function.update_of_ne hne]
      exact hlive f (List.mem_cons_of_mem e hf)
    obtain ⟨hmisuses', hstatus'⟩ := ih (q.delete e.second) hnodup.2 hrest
    refine ⟨hmisuses'.trans hmisuses, fun timer => ?_⟩
    rw [List.foldl_cons, hstatus', hstatus]
    by_cases heq : timer = e.second
    · subst heq
      simp
    · simp [heq]

end TimerQueue

namespace TimerWorld

/-- Between the iterations of the loop the holders are the set and the queued insertions. -/
private theorem Owned.holders_outside {w : TimerWorld} (hinv : w.Owned)
    (houtside : w.phase = .polling ∨ w.phase = .handling) :
    w.holders = w.timers_ ++ arriving w.pendingTasks_ := by
  obtain hphase | hphase := houtside
  all_goals
    have hempty : w.tasks = [] := hinv.idle (by simp [hphase])
    simp [holders, hphase, TimerPhase.entries, hempty, arriving]

/-- In every run that executes its cancellations while their timers are in the set, the destructor, outside of a
dispatch, deletes no timer twice, and the timers that are left over are those whose insertion is still queued. -/
theorem destruct_leaks_iff_queued {time : Timestamp} {labels : List TimerLabel} {w : TimerWorld}
    (hcancels : Run.Along step CancelsPending (init time) labels)
    (hrun : Run.exec step (init time) labels = some w)
    (houtside : w.phase = .polling ∨ w.phase = .handling) :
    w.destruct.misuses = [] ∧
      ∀ timer, w.destruct.status timer = .live ↔ timer ∈ (arriving w.pendingTasks_).map Entry.second := by
  obtain ⟨howned, hheld⟩ : w.Kept :=
    Run.exec_invariant (fun _ _ _ hinv hl hstep => (hinv.step_pending hl hstep).1) (init_kept time) hcancels hrun
  have hholders := howned.holders_outside houtside
  have hnodup := howned.nodup
  rw [hholders, List.map_append, List.nodup_append] at hnodup
  obtain ⟨hset, _, hdisjoint⟩ := hnodup
  have hlive : ∀ e ∈ w.timers_ ++ arriving w.pendingTasks_, w.status e.second = .live := by
    rw [← hholders]
    exact howned.live
  obtain ⟨hmisuses, hstatus⟩ := TimerQueue.deleteAll_spec w.timers_ w.toTimerQueue hset
    fun e he => hlive e (List.mem_append_left _ he)
  refine ⟨hmisuses.trans howned.safe, fun timer => ?_⟩
  rw [TimerQueue.destruct, hstatus]
  constructor
  · intro h
    split at h
    · cases h
    · rename_i hout
      have hmem := hheld timer h
      rw [hholders, List.map_append, List.mem_append] at hmem
      exact hmem.resolve_left hout
  · intro hqueued
    rw [if_neg fun hin => hdisjoint timer hin timer hqueued rfl]
    obtain ⟨e, he, rfl⟩ := List.mem_map.mp hqueued
    exact hlive e (List.mem_append_right _ he)

/-- A timer added by another thread after the last batch of tasks was swapped out is never deleted. -/
theorem destruct_leaks_last_added : ∃ w : TimerWorld,
    Run.exec step (init 0)
      [.addTimer 1 5 10, .addTimerElsewhere 2 6 0, .tick 7, .handleRead, .fire, .settle, .endRead, .swap, .task,
        .addTimerElsewhere 3 9 0, .endTasks] = some w ∧
    w.destruct.misuses = [] ∧ w.destruct.status 1 = .deleted ∧ w.destruct.status 2 = .deleted ∧
    w.destruct.status 3 = .live := by
  apply Run.Reaches.exists_of (p := fun w => w.phase = .polling ∧ w.pendingTasks_ = [.addTimer 9 3] ∧
    w.destruct.status 1 = .deleted ∧ w.destruct.status 2 = .deleted)
  · decide +kernel
  · rintro w hrun ⟨hphase, htasks, hone, htwo⟩
    have hspec := destruct_leaks_iff_queued (by decide +kernel) hrun (Or.inl hphase)
    refine ⟨hspec.1, hone, htwo, (hspec.2 3).mpr ?_⟩
    simp [htasks, arriving]

end TimerWorld

end mudong.ev
