import Mudong.TimerQueue.Ownership

namespace mudong.ev

/-- The timer that a task adds or cancels. -/
def TimerTask.timer : TimerTask → Option Nat
  | .addTimer _ timer => some timer
  | .cancelTimer timer => some timer
  | .other => none

/-- The timer that a call adds or cancels. -/
def TimerLabel.timer : TimerLabel → Option Nat
  | .addTimer timer _ _ => some timer
  | .cancelTimer timer => some timer
  | .addTimerElsewhere timer _ _ => some timer
  | .cancelTimerElsewhere timer => some timer
  | _ => none

/-- The task that a call of another thread queues. -/
def TimerLabel.queues : TimerLabel → Option TimerTask
  | .addTimerElsewhere timer when_ _ => some (.addTimer when_ timer)
  | .cancelTimerElsewhere timer => some (.cancelTimer timer)
  | .pushOther => some .other
  | _ => none

theorem TimerLabel.queues_timer {l : TimerLabel} {task : TimerTask} (h : l.queues = some task) :
    task.timer = l.timer := by
  cases l with
  | addTimerElsewhere | cancelTimerElsewhere | pushOther =>
    cases h
    rfl
  | _ => cases h

/-- The call does not cancel the timer. -/
def TimerLabel.Spares (timer : Nat) (l : TimerLabel) : Prop := l ≠ .cancelTimer timer ∧ l ≠ .cancelTimerElsewhere timer

namespace TimerList

theorem filter_insert {timers : List Entry} {e : Entry} {timer : Nat} (hne : e.second ≠ timer) :
    ((insert timers e).1.filter (·.second = timer)).Perm (timers.filter (·.second = timer)) := by
  by_cases he : e ∈ timers
  · rw [insert, if_pos he]
  · have hperm := (insert_perm he).filter (fun f => decide (f.second = timer))
    rwa [List.filter_cons_of_neg (by simpa using hne)] at hperm

theorem filter_erase {timers : List Entry} {e : Entry} {timer : Nat} (hne : e.second ≠ timer) :
    ((timers.erase e).filter (·.second = timer)).Perm (timers.filter (·.second = timer)) := by
  by_cases he : e ∈ timers
  · have hperm := (List.perm_cons_erase he).filter (fun f => decide (f.second = timer))
    rw [List.filter_cons_of_neg (by simpa using hne)] at hperm
    exact hperm.symm
  · rw [List.erase_of_not_mem he]

end TimerList

namespace TimerQueue

/-- The queue does nothing to the timer. -/
structure Spares (timer : Nat) (q q' : TimerQueue) : Prop where
  status : q'.status timer = q.status timer
  object : q'.object timer = q.object timer
  timers_ : (q'.timers_.filter (·.second = timer)).Perm (q.timers_.filter (·.second = timer))

theorem Spares.trans {timer : Nat} {q q' q'' : TimerQueue} (h : Spares timer q q') (h' : Spares timer q' q'') :
    Spares timer q q'' :=
  ⟨h'.status.trans h.status, h'.object.trans h.object, h'.timers_.trans h.timers_⟩

/-- Records, assertions and the timer descriptor are not the timer. -/
theorem Spares.of_same {timer : Nat} {q q' : TimerQueue}
    (h : (q'.status, q'.object, q'.timers_) = (q.status, q.object, q.timers_)) : Spares timer q q' := by
  simp only [Prod.mk.injEq] at h
  obtain ⟨hstatus, hobject, htimers⟩ := h
  refine ⟨by rw [hstatus], by rw [hobject], by rw [htimers]⟩

theorem new_spares {timer other : Nat} (hne : other ≠ timer) (q : TimerQueue) (when_ : Timestamp)
    (interval_ : Nanoseconds) : Spares timer q (q.new other when_ interval_) :=
  ⟨Function.update_of_ne hne.symm .., Function.update_of_ne hne.symm .., List.Perm.refl _⟩

theorem addTimerInLoop_spares {timer other : Nat} (hne : other ≠ timer) (q : TimerQueue) (when_ now : Timestamp) :
    Spares timer q (q.addTimerInLoop when_ other now) := by
  unfold addTimerInLoop
  dsimp only
  split
  · exact ⟨rfl, rfl, TimerList.filter_insert hne⟩
  · exact ⟨rfl, rfl, TimerList.filter_insert hne⟩

theorem cancelTimerInLoop_spares {timer other : Nat} (hne : other ≠ timer) (q : TimerQueue) :
    Spares timer q (q.cancelTimerInLoop other) :=
  ⟨Function.update_of_ne hne.symm .., Function.update_of_ne hne.symm .., TimerList.filter_erase hne⟩

theorem fireTimer_spares (timer : Nat) (q : TimerQueue) (now : Timestamp) (e : Entry) :
    Spares timer q (q.fireTimer now e).1 := .of_same (q.fireTimer_same now e)

theorem settleTimer_spares {timer : Nat} {e : Entry} (hne : e.second ≠ timer) (q : TimerQueue) :
    Spares timer q (q.settleTimer e) := by
  by_cases hdeletes : (q.object e.second).canceled_ = true ∨ (q.object e.second).repeat_ = false
  · obtain ⟨htimers, hobject, hstatus⟩ := settleTimer_deletes hdeletes
    refine ⟨?_, by rw [hobject], by rw [htimers]⟩
    rw [hstatus, Function.update_of_ne hne.symm]
  · simp only [not_or, Bool.not_eq_true, Bool.not_eq_false] at hdeletes
    obtain ⟨htimers, hobject, hstatus⟩ := settleTimer_repeats hdeletes.1 hdeletes.2
    refine ⟨by rw [hstatus], ?_, ?_⟩
    · rw [hobject, Function.update_of_ne hne.symm]
    · rw [htimers]
      exact TimerList.filter_insert hne

theorem rearm_spares (timer : Nat) (q : TimerQueue) (now : Timestamp) : Spares timer q (q.rearm now) := by
  unfold rearm
  split
  · exact .of_same rfl
  · exact .of_same rfl

/-- Every timer that exists or has existed still counts as one. -/
def Remembers (q q' : TimerQueue) : Prop := ∀ timer, q.status timer ≠ .unused → q'.status timer ≠ .unused

theorem Remembers.of_same {q q' : TimerQueue} (h : q'.status = q.status) : Remembers q q' := by
  intro timer hused
  rw [h]
  exact hused

theorem Remembers.of_update {q q' : TimerQueue} {timer : Nat} {status : Status} (hstatus : status ≠ .unused)
    (h : q'.status = Function.update q.status timer status) : Remembers q q' := by
  intro other hused
  rw [h, Function.update_apply]
  split
  · exact hstatus
  · exact hused

theorem addTimerInLoop_status (q : TimerQueue) (when_ : Timestamp) (timer : Nat) (now : Timestamp) :
    (q.addTimerInLoop when_ timer now).status = q.status := by
  unfold addTimerInLoop
  dsimp only
  split <;> rfl

theorem fireTimer_remembers (q : TimerQueue) (now : Timestamp) (e : Entry) : Remembers q (q.fireTimer now e).1 :=
  .of_same (Prod.mk.inj (q.fireTimer_same now e)).1

theorem settleTimer_remembers (q : TimerQueue) (e : Entry) : Remembers q (q.settleTimer e) := by
  by_cases hdeletes : (q.object e.second).canceled_ = true ∨ (q.object e.second).repeat_ = false
  · exact .of_update (by simp) (settleTimer_deletes hdeletes).2.2
  · simp only [not_or, Bool.not_eq_true, Bool.not_eq_false] at hdeletes
    exact .of_same (settleTimer_repeats hdeletes.1 hdeletes.2).2.2

theorem rearm_remembers (q : TimerQueue) (now : Timestamp) : Remembers q (q.rearm now) := by
  unfold rearm
  split
  · exact .of_same rfl
  · exact .of_same rfl

end TimerQueue

namespace TimerWorld

/-- The entries of the timer, in the set and in the hands of the dispatch. -/
def entriesOf (w : TimerWorld) (timer : Nat) : List Entry :=
  (w.timers_ ++ w.phase.entries).filter (·.second = timer)

/-- No queued task adds or cancels the timer. -/
def Unnamed (w : TimerWorld) (timer : Nat) : Prop := ∀ task ∈ w.tasks ++ w.pendingTasks_, task.timer ≠ some timer

/-- The loop is about to put the timer back or to delete it. -/
def Settles (w : TimerWorld) (timer : Nat) : TimerLabel → Prop
  | .settle => w.phase.entries.head?.map Entry.second = some timer
  | _ => False

instance decidableSettles (w : TimerWorld) (timer : Nat) : ∀ l, Decidable (w.Settles timer l)
  | .settle => inferInstanceAs (Decidable (_ = _))
  | .tick _ | .poll | .addTimer _ _ _ | .cancelTimer _ | .addTimerElsewhere _ _ _ | .cancelTimerElsewhere _ | .pushOther
  | .handleRead | .fire | .endRead | .swap | .task | .endTasks => isFalse (fun h => h)

/-- The timer that a step creates or whose body of `addTimer` or `cancelTimer` it runs. -/
def touches (w : TimerWorld) : TimerLabel → Option Nat
  | .task => w.tasks.head?.bind TimerTask.timer
  | .cancelTimerElsewhere _ => none
  | l => l.timer

/-- Everything that a step can do to the queued tasks. -/
inductive Queues (w w' : TimerWorld) (l : TimerLabel) : Prop where
  | same (hl : l ≠ .task) (htasks : w'.tasks = w.tasks) (hpending : w'.pendingTasks_ = w.pendingTasks_)
  | push (task : TimerTask) (hl : l ≠ .task) (hlabel : l.queues = some task) (htasks : w'.tasks = w.tasks)
    (hpending : w'.pendingTasks_ = w.pendingTasks_ ++ [task]) (hphase : w'.phase = w.phase)
  | swap (hl : l = .swap) (hphase : w.phase ≠ .running) (hphase' : w'.phase = .running)
    (htasks : w'.tasks = w.pendingTasks_) (hpending : w'.pendingTasks_ = [])
  | take (task : TimerTask) (hl : l = .task) (hphase : w.phase = .running) (hphase' : w'.phase = .running)
    (htasks : w.tasks = task :: w'.tasks) (hpending : w'.pendingTasks_ = w.pendingTasks_)
    (hqueue : w'.toTimerQueue = w.runTask task)

theorem step_queues {w w' : TimerWorld} {l : TimerLabel} (hstep : w.step l = some w') : w.Queues w' l := by
  cases l with
  | tick duration =>
    simp only [TimerWorld.step, Option.ite_none_right_eq_some, Option.some.injEq] at hstep
    obtain ⟨_, rfl⟩ := hstep
    exact .same (by simp) rfl rfl
  | addTimerElsewhere timer when_ interval =>
    simp only [TimerWorld.step, Option.ite_none_right_eq_some, Option.some.injEq] at hstep
    obtain ⟨_, rfl⟩ := hstep
    exact .push _ (by simp) rfl rfl rfl rfl
  | cancelTimerElsewhere timer =>
    simp only [TimerWorld.step, Option.ite_none_right_eq_some, Option.some.injEq] at hstep
    obtain ⟨_, rfl⟩ := hstep
    exact .push _ (by simp) rfl rfl rfl rfl
  | pushOther =>
    cases hstep
    exact .push _ (by simp) rfl rfl rfl rfl
  | fire | settle | endRead =>
    simp only [TimerWorld.step] at hstep
    split at hstep
    · cases hstep
      exact .same (by simp) rfl rfl
    · cases hstep
  | swap =>
    simp only [TimerWorld.step, Option.ite_none_right_eq_some, Option.some.injEq] at hstep
    obtain ⟨hphase, rfl⟩ := hstep
    exact .swap rfl (by simp [hphase]) rfl rfl rfl
  | task =>
    simp only [TimerWorld.step] at hstep
    split at hstep
    · rename_i task rest hphase htasks
      cases hstep
      exact .take task rfl hphase hphase htasks rfl rfl
    · cases hstep
  | poll | addTimer | cancelTimer | handleRead | endTasks =>
    simp only [TimerWorld.step, Option.ite_none_right_eq_some, Option.some.injEq] at hstep
    obtain ⟨_, rfl⟩ := hstep
    exact .same (by simp) rfl rfl

/-- A call that does not name the timer queues no task that names it. -/
theorem Queues.unnamed {w w' : TimerWorld} {l : TimerLabel} {timer : Nat} (hqueues : w.Queues w' l)
    (hnamed : l.timer ≠ some timer) (hunnamed : w.Unnamed timer) : w'.Unnamed timer := by
  intro t ht
  cases hqueues with
  | same hl htasks hpending =>
    rw [htasks, hpending] at ht
    exact hunnamed t ht
  | push task hl hlabel htasks hpending hphase =>
    rw [htasks, hpending, ← List.append_assoc] at ht
    obtain ht | ht := List.mem_append.mp ht
    · exact hunnamed t ht
    · rw [List.mem_singleton.mp ht, TimerLabel.queues_timer hlabel]
      exact hnamed
  | swap hl hphase hphase' htasks hpending =>
    rw [htasks, hpending, List.append_nil] at ht
    exact hunnamed t (List.mem_append_right _ ht)
  | take task hl hphase hphase' htasks hpending hqueue =>
    rw [hpending] at ht
    exact hunnamed t (by rw [htasks]; exact List.mem_cons_of_mem _ ht)

/-- A step that does not touch the timer leaves it alone, unless the dispatch settles it. -/
theorem step_untouched {w w' : TimerWorld} {l : TimerLabel} {timer : Nat} (htouches : w.touches l ≠ some timer)
    (hsettles : ¬w.Settles timer l) (hstep : w.step l = some w') :
    w'.status timer = w.status timer ∧ w'.object timer = w.object timer ∧
      (w'.entriesOf timer).Perm (w.entriesOf timer) := by
  have hqueue (hspares : TimerQueue.Spares timer w.toTimerQueue w'.toTimerQueue)
      (hphase : w'.phase.entries.filter (·.second = timer) = w.phase.entries.filter (·.second = timer)) :
      w'.status timer = w.status timer ∧ w'.object timer = w.object timer ∧
        (w'.entriesOf timer).Perm (w.entriesOf timer) := by
    refine ⟨hspares.status, hspares.object, ?_⟩
    unfold entriesOf
    rw [List.filter_append, List.filter_append, hphase]
    exact hspares.timers_.append_right _
  cases l with
  | tick duration =>
    simp only [TimerWorld.step, Option.ite_none_right_eq_some, Option.some.injEq] at hstep
    obtain ⟨_, rfl⟩ := hstep
    exact hqueue (.of_same rfl) rfl
  | poll =>
    simp only [TimerWorld.step, Option.ite_none_right_eq_some, Option.some.injEq] at hstep
    obtain ⟨hphase, rfl⟩ := hstep
    exact hqueue (.of_same rfl) (by rw [hphase]; rfl)
  | addTimer other when_ interval =>
    simp only [TimerWorld.step, Option.ite_none_right_eq_some, Option.some.injEq] at hstep
    obtain ⟨_, rfl⟩ := hstep
    have hne : other ≠ timer := by simpa [touches, TimerLabel.timer] using htouches
    exact hqueue ((TimerQueue.new_spares hne ..).trans (TimerQueue.addTimerInLoop_spares hne ..)) rfl
  | cancelTimer other =>
    simp only [TimerWorld.step, Option.ite_none_right_eq_some, Option.some.injEq] at hstep
    obtain ⟨_, rfl⟩ := hstep
    have hne : other ≠ timer := by simpa [touches, TimerLabel.timer] using htouches
    exact hqueue (TimerQueue.cancelTimerInLoop_spares hne _) rfl
  | addTimerElsewhere other when_ interval =>
    simp only [TimerWorld.step, Option.ite_none_right_eq_some, Option.some.injEq] at hstep
    obtain ⟨_, rfl⟩ := hstep
    have hne : other ≠ timer := by simpa [touches, TimerLabel.timer] using htouches
    exact hqueue (TimerQueue.new_spares hne ..) rfl
  | cancelTimerElsewhere other =>
    simp only [TimerWorld.step, Option.ite_none_right_eq_some, Option.some.injEq] at hstep
    obtain ⟨_, rfl⟩ := hstep
    exact hqueue (.of_same rfl) rfl
  | pushOther =>
    cases hstep
    exact hqueue (.of_same rfl) rfl
  | handleRead =>
    simp only [TimerWorld.step, Option.ite_none_right_eq_some, Option.some.injEq] at hstep
    obtain ⟨hphase, rfl⟩ := hstep
    refine ⟨rfl, rfl, ?_⟩
    simp only [entriesOf, hphase, TimerPhase.entries, TimerQueue.getExpired, List.append_nil]
    refine List.Perm.filter _ (List.perm_append_comm.trans ?_)
    rw [List.takeWhile_append_dropWhile]
  | fire =>
    simp only [TimerWorld.step] at hstep
    split at hstep
    · rename_i now e rest hphase
      cases hstep
      exact hqueue (TimerQueue.fireTimer_spares ..) (by rw [hphase]; rfl)
    · cases hstep
  | settle =>
    simp only [TimerWorld.step] at hstep
    split at hstep
    · rename_i now e rest ran hphase
      cases hstep
      have hne : e.second ≠ timer := by
        simpa [Settles, hphase, TimerPhase.entries] using hsettles
      refine hqueue (TimerQueue.settleTimer_spares hne _) ?_
      rw [hphase]
      exact (List.filter_cons_of_neg (by simpa using hne)).symm
    · cases hstep
  | endRead =>
    simp only [TimerWorld.step] at hstep
    split at hstep
    · rename_i now hphase
      cases hstep
      exact hqueue (TimerQueue.rearm_spares ..) (by rw [hphase]; rfl)
    · cases hstep
  | swap =>
    simp only [TimerWorld.step, Option.ite_none_right_eq_some, Option.some.injEq] at hstep
    obtain ⟨hphase, rfl⟩ := hstep
    exact hqueue (.of_same rfl) (by rw [hphase]; rfl)
  | task =>
    simp only [TimerWorld.step] at hstep
    split at hstep
    · rename_i task rest hphase htasks
      cases hstep
      have hne : task.timer ≠ some timer := by simpa [touches, htasks] using htouches
      refine hqueue ?_ rfl
      cases task with
      | addTimer when_ added =>
        exact TimerQueue.addTimerInLoop_spares (by simpa [TimerTask.timer] using hne) ..
      | cancelTimer canceled =>
        exact TimerQueue.cancelTimerInLoop_spares (by simpa [TimerTask.timer] using hne) _
      | other => exact .of_same rfl
    · cases hstep
  | endTasks =>
    simp only [TimerWorld.step, Option.ite_none_right_eq_some, Option.some.injEq] at hstep
    obtain ⟨⟨hphase, _⟩, rfl⟩ := hstep
    exact hqueue (.of_same rfl) (by rw [hphase]; rfl)

/-- The step does nothing to the timer. -/
structure Spares (timer : Nat) (w w' : TimerWorld) : Prop where
  status : w'.status timer = w.status timer
  object : w'.object timer = w.object timer
  entries : (w'.entriesOf timer).Perm (w.entriesOf timer)
  unnamed : w'.Unnamed timer

/-- A timer that neither the call nor a queued task names is touched only when the dispatch settles it. -/
theorem step_spares {w w' : TimerWorld} {l : TimerLabel} {timer : Nat} (hnamed : l.timer ≠ some timer)
    (hunnamed : w.Unnamed timer) (hsettles : ¬w.Settles timer l) (hstep : w.step l = some w') :
    Spares timer w w' := by
  have htouches : w.touches l ≠ some timer := by
    unfold touches
    split
    · intro htask
      obtain ⟨task, hhead, htimer⟩ := Option.bind_eq_some_iff.mp htask
      exact hunnamed task (List.mem_append_left _ (List.mem_of_head? hhead)) htimer
    · simp
    · exact hnamed
  obtain ⟨hstatus, hobject, hentries⟩ := step_untouched htouches hsettles hstep
  exact ⟨hstatus, hobject, hentries, (step_queues hstep).unnamed hnamed hunnamed⟩

/-- A timer that exists or has existed is not added again. -/
theorem step_timer_ne {w w' : TimerWorld} {l : TimerLabel} {timer : Nat} (hused : w.status timer ≠ .unused)
    (hspares : l.Spares timer) (hstep : w.step l = some w') : l.timer ≠ some timer := by
  intro hnamed
  cases l with
  | addTimer other when_ interval =>
    simp only [TimerWorld.step, Option.ite_none_right_eq_some] at hstep
    exact hused (Option.some.inj hnamed ▸ hstep.1.2.2)
  | cancelTimer other => exact hspares.1 (by rw [Option.some.inj hnamed])
  | addTimerElsewhere other when_ interval =>
    simp only [TimerWorld.step, Option.ite_none_right_eq_some] at hstep
    exact hused (Option.some.inj hnamed ▸ hstep.1.2)
  | cancelTimerElsewhere other => exact hspares.2 (by rw [Option.some.inj hnamed])
  | _ => cases hnamed

/-- A repeating timer that nobody has cancelled: it exists and has one entry, under its own time. -/
structure Undisturbed (w : TimerWorld) (timer : Nat) : Prop where
  live : w.status timer = .live
  repeats : (w.object timer).repeat_ = true ∧ (w.object timer).canceled_ = false
  entries : w.entriesOf timer = [⟨(w.object timer).when_, timer⟩]
  unnamed : w.Unnamed timer

/-- A timer that has been deleted and has no entry left. -/
structure Discarded (w : TimerWorld) (timer : Nat) : Prop where
  deleted : w.status timer = .deleted
  entries : w.entriesOf timer = []
  unnamed : w.Unnamed timer

/-- The dispatch settles a timer whose entry it holds. -/
theorem not_settles {w : TimerWorld} {timer : Nat} (hentries : w.entriesOf timer = []) (l : TimerLabel) :
    ¬w.Settles timer l := by
  intro hsettles
  cases l with
  | settle =>
    obtain ⟨e, hhead, hsecond⟩ := Option.map_eq_some_iff.mp hsettles
    have hmem : e ∈ w.entriesOf timer :=
      List.mem_filter.mpr ⟨List.mem_append_right _ (List.mem_of_head? hhead), by simpa using hsecond⟩
    rw [hentries] at hmem
    cases hmem
  | _ => exact hsettles

/-- A discarded timer does not come back. -/
theorem Discarded.step {w w' : TimerWorld} {l : TimerLabel} {timer : Nat} (hinv : w.Discarded timer)
    (hspares : l.Spares timer) (hstep : w.step l = some w') : w'.Discarded timer := by
  have hsettles := not_settles hinv.entries l
  have hsame := step_spares (step_timer_ne (by simp [hinv.deleted]) hspares hstep) hinv.unnamed hsettles hstep
  refine ⟨hsame.status.trans hinv.deleted, ?_, hsame.unnamed⟩
  rw [← List.perm_nil, ← hinv.entries]
  exact hsame.entries

/-- The dispatch puts a timer that repeats and is not cancelled back under its next time. -/
theorem step_settle_repeats {w w' : TimerWorld} {timer : Nat} (hcanceled : (w.object timer).canceled_ = false)
    (hrepeat : (w.object timer).repeat_ = true) (hentries : w.entriesOf timer = [⟨(w.object timer).when_, timer⟩])
    (hsettles : w.Settles timer .settle) (hstep : w.step .settle = some w') :
    w'.status = w.status ∧ w'.object timer = (w.object timer).restart ∧
      w'.entriesOf timer = [⟨(w.object timer).restart.when_, timer⟩] ∧
      (w'.tasks, w'.pendingTasks_) = (w.tasks, w.pendingTasks_) := by
  simp only [TimerWorld.step] at hstep
  split at hstep
  · rename_i now e rest ran hphase
    cases hstep
    obtain rfl : e.second = timer := by simpa [Settles, hphase, TimerPhase.entries] using hsettles
    rw [entriesOf, hphase, TimerPhase.entries, List.filter_append, List.filter_cons_of_pos (by simp),
      List.append_eq_singleton_iff] at hentries
    obtain ⟨hnone, hrest⟩ | ⟨_, hnil⟩ := hentries
    case inr => cases hnil
    obtain ⟨htimers, hobject, hstatus⟩ := TimerQueue.settleTimer_repeats hcanceled hrepeat
    have hnew : (⟨(w.object e.second).restart.when_, e.second⟩ : Entry) ∉ w.timers_ := by
      intro hmem
      rw [List.filter_eq_nil_iff] at hnone
      exact hnone _ hmem (decide_eq_true rfl)
    refine ⟨hstatus, by rw [hobject, Function.update_self], ?_, rfl⟩
    have hperm := (TimerList.insert_perm hnew).filter fun f => decide (f.second = e.second)
    rw [List.filter_cons_of_pos (by simp), hnone] at hperm
    rw [entriesOf, htimers, TimerPhase.entries, List.filter_append, (List.cons.inj hrest).2, List.append_nil]
    exact List.perm_singleton.mp hperm
  · cases hstep

/-- A timer that nobody cancels stays in the queue: the dispatch puts it back. -/
theorem Undisturbed.step {w w' : TimerWorld} {l : TimerLabel} {timer : Nat} (hinv : w.Undisturbed timer)
    (hspares : l.Spares timer) (hstep : w.step l = some w') : w'.Undisturbed timer := by
  by_cases hsettles : w.Settles timer l
  · cases l with
    | settle =>
      obtain ⟨hstatus, hobject, hentries, htasks⟩ :=
        step_settle_repeats hinv.repeats.2 hinv.repeats.1 hinv.entries hsettles hstep
      obtain ⟨htasks, hpending⟩ := Prod.mk.inj htasks
      refine ⟨by rw [hstatus]; exact hinv.live, by rw [hobject]; exact hinv.repeats, by rw [hobject]; exact hentries, ?_⟩
      unfold Unnamed
      rw [htasks, hpending]
      exact hinv.unnamed
    | _ => exact hsettles.elim
  · have hsame := step_spares (step_timer_ne (by simp [hinv.live]) hspares hstep) hinv.unnamed hsettles hstep
    refine ⟨hsame.status.trans hinv.live, by rw [hsame.object]; exact hinv.repeats, ?_, hsame.unnamed⟩
    rw [hsame.object, ← List.perm_singleton, ← hinv.entries]
    exact hsame.entries

/-- `cancelTimer` outside a dispatch leaves nothing of the timer. -/
theorem Undisturbed.cancelTimer {w w' : TimerWorld} {timer : Nat} (hinv : w.Undisturbed timer)
    (hphase : w.phase.entries = []) (hstep : w.step (.cancelTimer timer) = some w') : w'.Discarded timer := by
  simp only [TimerWorld.step, Option.ite_none_right_eq_some, Option.some.injEq] at hstep
  obtain ⟨_, rfl⟩ := hstep
  obtain ⟨htimers, _, hstatus, _⟩ := TimerQueue.cancelTimerInLoop_spec hinv.live
  have hentries := hinv.entries
  rw [entriesOf, hphase, List.append_nil] at hentries
  refine ⟨by rw [hstatus, Function.update_self], ?_, hinv.unnamed⟩
  have hmem : ⟨(w.object timer).when_, timer⟩ ∈ w.timers_ := by
    have hmem : ⟨(w.object timer).when_, timer⟩ ∈ w.timers_.filter (·.second = timer) := by simp [hentries]
    exact (List.mem_filter.mp hmem).1
  have hperm := (List.perm_cons_erase hmem).filter fun f => decide (f.second = timer)
  rw [hentries, List.filter_cons_of_pos (by simp)] at hperm
  rw [entriesOf, htimers, hphase, List.append_nil]
  exact List.perm_nil.mp (List.perm_cons _ |>.mp hperm).symm

/-- A timer that has not been created has no entry, and no queued task names it. -/
def Known (w : TimerWorld) : Prop := ∀ timer, w.status timer = .unused → w.entriesOf timer = [] ∧ w.Unnamed timer

theorem step_remembers {w w' : TimerWorld} {l : TimerLabel} (hstep : w.step l = some w') :
    TimerQueue.Remembers w.toTimerQueue w'.toTimerQueue := by
  cases l with
  | addTimer timer when_ interval =>
    simp only [TimerWorld.step, Option.ite_none_right_eq_some, Option.some.injEq] at hstep
    obtain ⟨_, rfl⟩ := hstep
    exact .of_update (by simp) (TimerQueue.addTimerInLoop_status ..)
  | cancelTimer timer =>
    simp only [TimerWorld.step, Option.ite_none_right_eq_some, Option.some.injEq] at hstep
    obtain ⟨_, rfl⟩ := hstep
    exact .of_update (by simp) rfl
  | addTimerElsewhere timer when_ interval =>
    simp only [TimerWorld.step, Option.ite_none_right_eq_some, Option.some.injEq] at hstep
    obtain ⟨_, rfl⟩ := hstep
    exact .of_update (by simp) rfl
  | fire =>
    simp only [TimerWorld.step] at hstep
    split at hstep
    · cases hstep
      exact TimerQueue.fireTimer_remembers _ _ _
    · cases hstep
  | settle =>
    simp only [TimerWorld.step] at hstep
    split at hstep
    · cases hstep
      exact TimerQueue.settleTimer_remembers _ _
    · cases hstep
  | endRead =>
    simp only [TimerWorld.step] at hstep
    split at hstep
    · cases hstep
      exact TimerQueue.rearm_remembers _ _
    · cases hstep
  | task =>
    simp only [TimerWorld.step] at hstep
    split at hstep
    · rename_i task rest _ _
      cases hstep
      cases task with
      | addTimer when_ timer => exact .of_same (TimerQueue.addTimerInLoop_status ..)
      | cancelTimer timer => exact .of_update (by simp) rfl
      | other => exact .of_same rfl
    · cases hstep
  | pushOther =>
    cases hstep
    exact .of_same rfl
  | tick | poll | cancelTimerElsewhere | handleRead | swap | endTasks =>
    simp only [TimerWorld.step, Option.ite_none_right_eq_some, Option.some.injEq] at hstep
    obtain ⟨_, rfl⟩ := hstep
    exact .of_same rfl

/-- A call leaves the timer that it names created. -/
theorem step_timer_used {w w' : TimerWorld} {l : TimerLabel} {timer : Nat} (hnamed : l.timer = some timer)
    (hstep : w.step l = some w') : w'.status timer ≠ .unused := by
  cases l with
  | addTimer other when_ interval =>
    cases hnamed
    simp only [TimerWorld.step, Option.ite_none_right_eq_some, Option.some.injEq] at hstep
    obtain ⟨_, rfl⟩ := hstep
    rw [TimerQueue.addTimerInLoop_status]
    simp [TimerQueue.new]
  | cancelTimer other =>
    cases hnamed
    have hremembers := step_remembers hstep
    simp only [TimerWorld.step, Option.ite_none_right_eq_some] at hstep
    exact hremembers timer hstep.1.2
  | addTimerElsewhere other when_ interval =>
    cases hnamed
    simp only [TimerWorld.step, Option.ite_none_right_eq_some, Option.some.injEq] at hstep
    obtain ⟨_, rfl⟩ := hstep
    simp [TimerQueue.new]
  | cancelTimerElsewhere other =>
    cases hnamed
    have hremembers := step_remembers hstep
    simp only [TimerWorld.step, Option.ite_none_right_eq_some] at hstep
    exact hremembers timer hstep.1
  | _ => cases hnamed

theorem Known.step {w w' : TimerWorld} {l : TimerLabel} (hinv : w.Known) (hstep : w.step l = some w') : w'.Known := by
  intro timer hunused
  have hunused' : w.status timer = .unused := by
    by_contra hused
    exact step_remembers hstep timer hused hunused
  obtain ⟨hentries, hunnamed⟩ := hinv timer hunused'
  have hsettles := not_settles hentries l
  have hsame := step_spares (fun hnamed => step_timer_used hnamed hstep hunused) hunnamed hsettles hstep
  refine ⟨?_, hsame.unnamed⟩
  rw [← List.perm_nil, ← hentries]
  exact hsame.entries

/-- A new timer that repeats is undisturbed. -/
theorem Known.addTimer {w w' : TimerWorld} {timer : Nat} {when_ : Timestamp} {interval : Nanoseconds}
    (hinv : w.Known) (hinterval : 0 < interval) (hstep : w.step (.addTimer timer when_ interval) = some w') :
    w'.Undisturbed timer := by
  simp only [TimerWorld.step, Option.ite_none_right_eq_some, Option.some.injEq] at hstep
  obtain ⟨⟨_, _, hfresh⟩, rfl⟩ := hstep
  obtain ⟨hentries, hunnamed⟩ := hinv timer hfresh
  rw [entriesOf, List.filter_append, List.append_eq_nil_iff] at hentries
  have hlive : (w.new timer when_ interval).status timer = .live := Function.update_self ..
  obtain ⟨htimers, hobject, hstatus, _⟩ := TimerQueue.addTimerInLoop_spec hlive when_ w.time
  have hinit : ((w.new timer when_ interval).addTimerInLoop when_ timer w.time).object timer =
      Timer.init when_ interval := by
    rw [hobject]
    exact Function.update_self ..
  have hnew : (⟨when_, timer⟩ : Entry) ∉ w.timers_ := by
    intro hmem
    exact List.filter_eq_nil_iff.mp hentries.1 _ hmem (decide_eq_true rfl)
  refine ⟨by rw [hstatus]; exact hlive, ?_, ?_, hunnamed⟩
  · rw [hinit]
    exact ⟨decide_eq_true hinterval, rfl⟩
  · have hperm := (TimerList.insert_perm hnew).filter fun f => decide (f.second = timer)
    rw [List.filter_cons_of_pos (by simp), hentries.1] at hperm
    rw [hinit, entriesOf, htimers, List.filter_append, hentries.2, List.append_nil]
    exact List.perm_singleton.mp hperm

end TimerWorld

end mudong.ev
