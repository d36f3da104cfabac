import Mudong.TimerQueue.Deadline
import Mudong.TimerQueue.Ownership

namespace mudong.ev

namespace TimerQueue

theorem addTimerInLoop_runs (q : TimerQueue) (when_ : Timestamp) (timer : Nat) (now : Timestamp) :
    (q.addTimerInLoop when_ timer now).runs = q.runs := by
  unfold addTimerInLoop
  dsimp only
  split <;> rfl

theorem settleTimer_runs (q : TimerQueue) (e : Entry) : (q.settleTimer e).runs = q.runs := by
  unfold settleTimer
  dsimp only
  split
  · rfl
  · split <;> rfl

theorem rearm_runs (q : TimerQueue) (now : Timestamp) : (q.rearm now).runs = q.runs := by
  unfold rearm
  split <;> rfl

theorem fireTimer_runs (q : TimerQueue) (now : Timestamp) (e : Entry) :
    (q.fireTimer now e).1.runs = q.runs ++ if (q.object e.second).canceled_ then [] else [(e.second, now)] := by
  cases hcanceled : (q.object e.second).canceled_ <;> simp [fireTimer, access, check, hcanceled]

end TimerQueue

namespace TimerWorld

/-- The timer that a step runs, with the time of the dispatch. -/
def fires (w : TimerWorld) : TimerLabel → List (Nat × Timestamp)
  | .fire =>
    match w.phase with
    | .expiring now (e :: _) => if (w.object e.second).canceled_ then [] else [(e.second, now)]
    | _ => []
  | _ => []

theorem fires_of_ne {l : TimerLabel} (hl : l ≠ .fire) (w : TimerWorld) : w.fires l = [] := by
  cases l with
  | fire => exact (hl rfl).elim
  | _ => rfl

theorem step_runs {w w' : TimerWorld} {l : TimerLabel} (hstep : w.step l = some w') :
    w'.runs = w.runs ++ w.fires l := by
  by_cases hfire : l = .fire
  · subst hfire
    simp only [TimerWorld.step] at hstep
    split at hstep
    · rename_i now e rest hphase
      cases hstep
      simp only [fires, hphase]
      exact TimerQueue.fireTimer_runs ..
    · cases hstep
  rw [fires_of_ne hfire, List.append_nil]
  cases l with
  | fire => exact (hfire rfl).elim
  | settle =>
    simp only [TimerWorld.step] at hstep
    split at hstep
    · cases hstep
      exact TimerQueue.settleTimer_runs ..
    · cases hstep
  | endRead =>
    simp only [TimerWorld.step] at hstep
    split at hstep
    · cases hstep
      exact TimerQueue.rearm_runs ..
    · cases hstep
  | task =>
    simp only [TimerWorld.step] at hstep
    split at hstep
    · rename_i task rest _ _
      cases hstep
      cases task with
      | addTimer when_ timer => exact TimerQueue.addTimerInLoop_runs ..
      | cancelTimer timer => rfl
      | other => rfl
    · cases hstep
  | addTimer timer when_ interval =>
    simp only [TimerWorld.step, Option.ite_none_right_eq_some, Option.some.injEq] at hstep
    obtain ⟨_, rfl⟩ := hstep
    exact TimerQueue.addTimerInLoop_runs ..
  | pushOther =>
    cases hstep
    rfl
  | tick | poll | cancelTimer | addTimerElsewhere | cancelTimerElsewhere | handleRead | swap | endTasks =>
    simp only [TimerWorld.step, Option.ite_none_right_eq_some, Option.some.injEq] at hstep
    obtain ⟨_, rfl⟩ := hstep
    rfl

/-- A cancellation is executed outside `handleRead`, after the timer has been inserted and before it is deleted;
so it is executed at most once, as it deletes the timer. -/
def CancelsInTime (w : TimerWorld) (l : TimerLabel) : Prop :=
  ∀ timer ∈ w.cancels l, w.phase.inHandleRead = false ∧ w.status timer = .live ∧
    timer ∉ (arriving w.tasks ++ arriving w.pendingTasks_).map Entry.second

instance (w : TimerWorld) (l : TimerLabel) : Decidable (w.CancelsInTime l) :=
  inferInstanceAs (Decidable (∀ timer ∈ w.cancels l, _ ∧ _ ∧ _))

/-- A deleted timer is not created again. -/
theorem Moves.deleted {w w' : TimerWorld} {timer : Nat} (hmoves : w.Moves w') (hdeleted : w.status timer = .deleted) :
    w'.status timer = .deleted := by
  cases hmoves with
  | same hholders hobject hstatus => rw [hstatus, hdeleted]
  | create e t hholders hfresh hobject hwhen hstatus =>
    have hne : timer ≠ e.second := by
      rintro rfl
      rw [hfresh] at hdeleted
      cases hdeleted
    rw [hstatus, Function.update_of_ne hne, hdeleted]
  | discard e hholders hobject hstatus =>
    rw [hstatus, Function.update_apply]
    split
    · rfl
    · exact hdeleted
  | retime e rest t hold hnew hobject hstatus => rw [hstatus, hdeleted]

theorem entries_of_outside {phase : TimerPhase} (h : phase.inHandleRead = false) : phase.entries = [] := by
  cases phase with
  | expiring | calling => cases h
  | polling | handling | running => rfl

/-- What is cancelled in time is in the set. -/
theorem Held.cancelsPending {w : TimerWorld} {l : TimerLabel} (hheld : w.Held) (hcancels : w.CancelsInTime l) :
    w.CancelsPending l := by
  intro timer htimer
  obtain ⟨houtside, hlive, harriving⟩ := hcancels timer htimer
  have hmem := hheld timer hlive
  rw [holders, entries_of_outside houtside, List.nil_append, List.map_append, List.mem_append] at hmem
  exact hmem.resolve_right harriving

theorem Kept.step {w w' : TimerWorld} {l : TimerLabel} (hinv : w.Kept) (hcancels : w.CancelsInTime l)
    (hstep : w.step l = some w') : w'.Kept ∧ w.Moves w' :=
  hinv.step_pending (hinv.held.cancelsPending hcancels) hstep

theorem Kept.timers_nodup {w : TimerWorld} (hinv : w.Kept) : (w.timers_.map Entry.second).Nodup := by
  have hall := hinv.owned.nodup
  rw [holders, List.map_append] at hall
  exact hall.of_append_left

/-- The dispatch runs only timers that exist. -/
theorem Kept.fires_live {w : TimerWorld} (hinv : w.Kept) (l : TimerLabel) : ∀ r ∈ w.fires l, w.status r.1 = .live := by
  intro r hr
  unfold fires at hr
  split at hr
  · split at hr
    · rename_i now e rest hphase
      split at hr
      · cases hr
      · rw [List.mem_singleton.mp hr]
        exact hinv.owned.live e (by simp [holders, hphase, TimerPhase.entries])
    · cases hr
  · cases hr

/-- After its deletion a timer is not run any more. -/
theorem Kept.never_run {w u : TimerWorld} {timer : Nat} {labels : List TimerLabel} (hinv : w.Kept)
    (hdeleted : w.status timer = .deleted) (hcancels : Run.Along TimerWorld.step CancelsInTime w labels)
    (hrun : Run.exec TimerWorld.step w labels = some u) :
    u.runs.filter (·.1 = timer) = w.runs.filter (·.1 = timer) := by
  have hall : u.Kept ∧ u.status timer = .deleted ∧
      u.runs.filter (·.1 = timer) = w.runs.filter (·.1 = timer) := by
    refine Run.exec_invariant (C := CancelsInTime) (I := fun u => u.Kept ∧ u.status timer = .deleted ∧
      u.runs.filter (·.1 = timer) = w.runs.filter (·.1 = timer)) ?_ ⟨hinv, hdeleted, rfl⟩ hcancels hrun
    intro v l v' ⟨hinv, hdeleted, hruns⟩ hl hstep
    obtain ⟨hinv', hmoves⟩ := hinv.step hl hstep
    refine ⟨hinv', hmoves.deleted hdeleted, ?_⟩
    have hnone : (v.fires l).filter (·.1 = timer) = [] := by
      rw [List.filter_eq_nil_iff]
      intro r hr heq
      have hlive := hinv.fires_live l r hr
      rw [of_decide_eq_true heq, hdeleted] at hlive
      cases hlive
    rw [step_runs hstep, List.filter_append, hnone, List.append_nil, hruns]
  exact hall.2.2

/-- The step that executes a cancellation runs the body of `cancelTimer`. -/
theorem step_cancels {w w' : TimerWorld} {l : TimerLabel} {timer : Nat} (hcancels : timer ∈ w.cancels l)
    (hstep : w.step l = some w') : w'.toTimerQueue = w.cancelTimerInLoop timer := by
  cases l with
  | cancelTimer other =>
    cases hcancels
    simp only [TimerWorld.step, Option.ite_none_right_eq_some, Option.some.injEq] at hstep
    obtain ⟨_, rfl⟩ := hstep
    rfl
  | task =>
    simp only [TimerWorld.step] at hstep
    split at hstep
    · rename_i task rest hphase htasks
      cases hstep
      simp only [cancels, hphase, htasks] at hcancels
      cases task with
      | cancelTimer other =>
        cases hcancels
        rfl
      | addTimer | other => cases hcancels
    · cases hstep
  | _ => cases hcancels

/-- The erase of a cancellation finds the one entry of its timer. -/
theorem Kept.cancel {w w' : TimerWorld} {l : TimerLabel} {timer : Nat} (hinv : w.Kept) (hcancels : w.CancelsInTime l)
    (htimer : timer ∈ w.cancels l) (hstep : w.step l = some w') :
    w.timers_.filter (·.second = timer) = [⟨(w.object timer).when_, timer⟩] ∧
      w'.timers_ = w.timers_.filter (·.second ≠ timer) ∧ w'.status timer = .deleted := by
  obtain ⟨e, he, rfl⟩ := List.mem_map.mp (hinv.held.cancelsPending hcancels timer htimer)
  have hheld : e ∈ w.holders := List.mem_append_left _ he
  have hnodup := hinv.timers_nodup
  have hentry : (⟨(w.object e.second).when_, e.second⟩ : Entry) = e := by rw [hinv.owned.matched e hheld]
  have hsame (f : Entry) (hf : f ∈ w.timers_) : f.second = e.second ↔ f = e :=
    ⟨List.inj_on_of_nodup_map hnodup hf he, fun h => by rw [h]⟩
  obtain ⟨htimers, _, hstatus, _⟩ := TimerQueue.cancelTimerInLoop_spec (hinv.owned.live e hheld)
  rw [← step_cancels htimer hstep] at htimers hstatus
  rw [hentry]
  refine ⟨?_, ?_, by rw [hstatus, Function.update_self]⟩
  · have hfilter : w.timers_.filter (fun f => decide (f.second = e.second)) = w.timers_.filter (· = e) := by
      refine List.filter_congr fun f hf => ?_
      rw [decide_eq_decide]
      exact hsame f hf
    rw [hfilter, List.filter_eq, List.count_eq_one_of_mem hnodup.of_map he, List.replicate_one]
  · rw [htimers, hentry, List.Nodup.erase_eq_filter hnodup.of_map]
    refine List.filter_congr fun f hf => ?_
    simp [bne, beq_eq_decide, hsame f hf]

/-- In every run that cancels in time, the entries outside `handleRead` carry the times of their timers and no
timer has two of them; so a cancellation removes the one entry of its timer and no other, and the timer is not
run afterwards. -/
theorem cancelTimer_effective {time : Timestamp} {labels : List TimerLabel} {w : TimerWorld}
    (hcancels : Run.Along step CancelsInTime (init time) labels)
    (hrun : Run.exec step (init time) labels = some w) :
    (w.phase.inHandleRead = false →
      (∀ e ∈ w.timers_, e.first = (w.object e.second).when_) ∧ (w.timers_.map Entry.second).Nodup) ∧
    ∀ l timer w', w.CancelsInTime l → timer ∈ w.cancels l → w.step l = some w' →
      w.timers_.filter (·.second = timer) = [⟨(w.object timer).when_, timer⟩] ∧
      w'.timers_ = w.timers_.filter (·.second ≠ timer) ∧
      ∀ later u, Run.Along step CancelsInTime w' later → Run.exec step w' later = some u →
        u.runs.filter (·.1 = timer) = w.runs.filter (·.1 = timer) := by
  have hinv : w.Kept :=
    Run.exec_invariant (fun _ _ _ hinv hl hstep => (hinv.step hl hstep).1) (init_kept time) hcancels hrun
  refine ⟨fun _ => ⟨?_, hinv.timers_nodup⟩, ?_⟩
  · intro e he
    exact (hinv.owned.matched e (List.mem_append_left _ he)).symm
  · intro l timer w' hl htimer hstep
    obtain ⟨hone, hrest, hdeleted⟩ := hinv.cancel hl htimer hstep
    refine ⟨hone, hrest, fun later u hlater hu => ?_⟩
    have hfire : l ≠ .fire := by
      rintro rfl
      cases htimer
    have hruns := step_runs hstep
    rw [fires_of_ne hfire, List.append_nil] at hruns
    rw [← hruns]
    exact (hinv.step hl hstep).1.never_run hdeleted hlater hu

/-- A timer that has repeated once and has added another is cancelled, and the next dispatch runs only the
other. -/
theorem cancelTimer_effective_after_repeat : ∃ w w' u : TimerWorld,
    Run.exec step (init 0) [.addTimer 1 5 10, .tick 7, .handleRead, .fire, .addTimer 2 15 0, .settle, .endRead] =
      some w ∧
    w.timers_ = [⟨15, 1⟩, ⟨15, 2⟩] ∧ w.step (.cancelTimer 1) = some w' ∧ w'.timers_ = [⟨15, 2⟩] ∧
    Run.exec step w' [.tick 20, .handleRead, .fire, .settle, .endRead] = some u ∧
    u.runs.filter (·.1 = 1) = w.runs.filter (·.1 = 1) := by
  obtain ⟨w, hrun, htimers, hnext⟩ := Run.Reaches.exists
    (show Run.Reaches step (init 0)
      [.addTimer 1 5 10, .tick 7, .handleRead, .fire, .addTimer 2 15 0, .settle, .endRead]
      (fun w => w.timers_ = [⟨15, 1⟩, ⟨15, 2⟩] ∧ w.CancelsInTime (.cancelTimer 1) ∧
        Run.Reaches step w [.cancelTimer 1] fun w' =>
          Run.Along step CancelsInTime w' [.tick 20, .handleRead, .fire, .settle, .endRead] ∧
          Run.Reaches step w' [.tick 20, .handleRead, .fire, .settle, .endRead] fun _ => True) by decide +kernel)
  obtain ⟨w', hcancel, hlater, hu⟩ := hnext.2.exists
  obtain ⟨u, hu, _⟩ := hu.exists
  obtain ⟨v, hv, hvw⟩ := Run.exec_cons_eq_some.mp hcancel
  cases hvw
  obtain ⟨_, hrest, hnever⟩ :=
    (cancelTimer_effective (by decide +kernel) hrun).2 (.cancelTimer 1) 1 w' hnext.1 rfl hv
  refine ⟨w, w', u, hrun, htimers, hv, ?_, hu, hnever _ u hlater hu⟩
  rw [hrest, htimers]
  decide

end TimerWorld

end mudong.ev
