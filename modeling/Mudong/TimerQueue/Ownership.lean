import Mudong.TimerQueue

namespace mudong.ev

namespace TimerList

theorem insert_perm {timers : List Entry} {e : Entry} (he : e ∉ timers) : (insert timers e).1.Perm (e :: timers) := by
  rw [insert, if_neg he]
  exact List.perm_orderedInsert Entry.lt e timers

end TimerList

namespace TimerQueue

theorem access_of_live {q : TimerQueue} {timer : Nat} (hlive : q.status timer = .live) (use : Use) :
    q.access timer use = q := by
  simp [access, hlive]

theorem addTimerInLoop_spec {q : TimerQueue} {timer : Nat} (hlive : q.status timer = .live) (when_ now : Timestamp) :
    (q.addTimerInLoop when_ timer now).timers_ = (TimerList.insert q.timers_ ⟨when_, timer⟩).1 ∧
      (q.addTimerInLoop when_ timer now).object = q.object ∧ (q.addTimerInLoop when_ timer now).status = q.status ∧
      (q.addTimerInLoop when_ timer now).misuses = q.misuses := by
  simp only [addTimerInLoop, access_of_live hlive]
  split <;> exact ⟨rfl, rfl, rfl, rfl⟩

theorem cancelTimerInLoop_spec {q : TimerQueue} {timer : Nat} (hlive : q.status timer = .live) :
    (q.cancelTimerInLoop timer).timers_ = q.timers_.erase ⟨(q.object timer).when_, timer⟩ ∧
      (q.cancelTimerInLoop timer).object = Function.update q.object timer (q.object timer).cancel ∧
      (q.cancelTimerInLoop timer).status = Function.update q.status timer .deleted ∧
      (q.cancelTimerInLoop timer).misuses = q.misuses := by
  simp only [cancelTimerInLoop, delete, access_of_live hlive]
  refine ⟨?_, ?_, ?_, ?_⟩
  · simp [access, check, Timer.cancel]
  all_goals simp [access, check, hlive]

theorem fireTimer_spec {q : TimerQueue} {e : Entry} (hlive : q.status e.second = .live) (now : Timestamp) :
    (q.fireTimer now e).1.timers_ = q.timers_ ∧ (q.fireTimer now e).1.object = q.object ∧
      (q.fireTimer now e).1.status = q.status ∧ (q.fireTimer now e).1.misuses = q.misuses := by
  simp only [fireTimer, access_of_live hlive]
  split <;> simp [access, check, hlive]

/-- The timer is put back with its next time, or it is deleted. -/
theorem settleTimer_spec {q : TimerQueue} {e : Entry} (hlive : q.status e.second = .live) :
    (q.settleTimer e).misuses = q.misuses ∧
      ((q.settleTimer e).timers_ =
          (TimerList.insert q.timers_ ⟨(q.object e.second).restart.when_, e.second⟩).1 ∧
        (q.settleTimer e).object = Function.update q.object e.second (q.object e.second).restart ∧
        (q.settleTimer e).status = q.status ∨
      (q.settleTimer e).timers_ = q.timers_ ∧ (q.settleTimer e).object = q.object ∧
        (q.settleTimer e).status = Function.update q.status e.second .deleted) := by
  simp only [settleTimer, delete, access_of_live hlive]
  split
  · exact ⟨rfl, Or.inr ⟨rfl, rfl, rfl⟩⟩
  · split
    · refine ⟨?_, Or.inl ⟨?_, ?_, ?_⟩⟩
      all_goals simp [access, check, hlive]
    · exact ⟨rfl, Or.inr ⟨rfl, rfl, rfl⟩⟩

end TimerQueue

/-- The entries that `handleRead` still has in its hands. -/
def TimerPhase.entries : TimerPhase → List Entry
  | .expiring _ rest => rest
  | .calling _ e rest _ => e :: rest
  | _ => []

/-- The entries whose insertion is queued. -/
def arriving (tasks : List TimerTask) : List Entry :=
  tasks.filterMap fun task =>
    match task with
    | .addTimer when_ timer => some ⟨when_, timer⟩
    | _ => none

@[simp] theorem arriving_append (tasks tasks' : List TimerTask) :
    arriving (tasks ++ tasks') = arriving tasks ++ arriving tasks' := List.filterMap_append

namespace TimerWorld

/-- Everything that holds a pointer to a timer and will use it: the set, the dispatch and the queued
insertions. -/
def holders (w : TimerWorld) : List Entry :=
  w.timers_ ++ (w.phase.entries ++ (arriving w.tasks ++ arriving w.pendingTasks_))

/-- The ownership invariant: every timer has at most one holder, a held timer exists, and it is held under its
own time. -/
structure Owned (w : TimerWorld) : Prop where
  nodup : (w.holders.map Entry.second).Nodup
  live : ∀ e ∈ w.holders, w.status e.second = .live
  matched : ∀ e ∈ w.holders, (w.object e.second).when_ = e.first
  idle : w.phase ≠ .running → w.tasks = []
  safe : w.misuses = []

/-- Everything that a step can do to the timers and their holders. -/
inductive Moves (w w' : TimerWorld) : Prop where
  | same (hholders : w'.holders.Perm w.holders) (hobject : w'.object = w.object) (hstatus : w'.status = w.status)
  | create (e : Entry) (t : Timer) (hholders : w'.holders.Perm (e :: w.holders))
    (hfresh : w.status e.second = .unused) (hobject : w'.object = Function.update w.object e.second t)
    (hwhen : t.when_ = e.first) (hstatus : w'.status = Function.update w.status e.second .live)
  | discard (e : Entry) (hholders : w.holders.Perm (e :: w'.holders))
    (hobject : ∀ timer ≠ e.second, w'.object timer = w.object timer)
    (hstatus : w'.status = Function.update w.status e.second .deleted)
  | retime (e : Entry) (rest : List Entry) (t : Timer) (hold : w.holders.Perm (e :: rest))
    (hnew : w'.holders.Perm (⟨t.when_, e.second⟩ :: rest))
    (hobject : w'.object = Function.update w.object e.second t) (hstatus : w'.status = w.status)

/-- A timer that has not been created has no holder. -/
private theorem Owned.fresh_ne {w : TimerWorld} {timer : Nat} (hinv : w.Owned) (hfresh : w.status timer = .unused) :
    ∀ f ∈ w.holders, f.second ≠ timer := by
  intro f hf heq
  have hlive := hinv.live f hf
  rw [heq, hfresh] at hlive
  cases hlive

/-- The other holders are holders of other timers. -/
theorem Owned.others {w : TimerWorld} {e : Entry} {rest : List Entry} (hinv : w.Owned)
    (hholders : w.holders.Perm (e :: rest)) :
    (rest.map Entry.second).Nodup ∧ ∀ f ∈ rest, f ∈ w.holders ∧ f.second ≠ e.second := by
  have hnodup : ((e :: rest).map Entry.second).Nodup := (hholders.map Entry.second).nodup_iff.mp hinv.nodup
  rw [List.map_cons, List.nodup_cons] at hnodup
  refine ⟨hnodup.2, fun f hf => ⟨hholders.mem_iff.mpr (List.mem_cons_of_mem _ hf), fun heq => ?_⟩⟩
  exact hnodup.1 (List.mem_map.mpr ⟨f, hf, heq⟩)

/-- Each of these moves keeps every timer with at most one holder, existing and held under its own time. -/
theorem Moves.owned {w w' : TimerWorld} (hmoves : w.Moves w') (hinv : w.Owned)
    (hidle : w'.phase ≠ .running → w'.tasks = []) (hsafe : w'.misuses = w.misuses) : w'.Owned := by
  cases hmoves with
  | same hholders hobject hstatus =>
    refine ⟨(hholders.map Entry.second).nodup_iff.mpr hinv.nodup, ?_, ?_, hidle, hsafe.trans hinv.safe⟩
    · intro e he
      rw [hstatus]
      exact hinv.live e (hholders.mem_iff.mp he)
    · intro e he
      rw [hobject]
      exact hinv.matched e (hholders.mem_iff.mp he)
  | create e t hholders hfresh hobject hwhen hstatus =>
    have hother := hinv.fresh_ne hfresh
    refine ⟨?_, ?_, ?_, hidle, hsafe.trans hinv.safe⟩
    · rw [(hholders.map Entry.second).nodup_iff, List.map_cons, List.nodup_cons]
      refine ⟨?_, hinv.nodup⟩
      intro hmem
      obtain ⟨f, hf, heq⟩ := List.mem_map.mp hmem
      exact hother f hf heq
    · intro f hf
      rw [hstatus]
      obtain rfl | hf := List.mem_cons.mp (hholders.mem_iff.mp hf)
      · simp
      · rw [Function.update_of_ne (hother f hf)]
        exact hinv.live f hf
    · intro f hf
      rw [hobject]
      obtain rfl | hf := List.mem_cons.mp (hholders.mem_iff.mp hf)
      · simpa using hwhen
      · rw [Function.update_of_ne (hother f hf)]
        exact hinv.matched f hf
  | discard e hholders hobject hstatus =>
    obtain ⟨hnodup, hothers⟩ := hinv.others hholders
    refine ⟨hnodup, ?_, ?_, hidle, hsafe.trans hinv.safe⟩
    · intro f hf
      obtain ⟨hheld, hne⟩ := hothers f hf
      rw [hstatus, Function.update_of_ne hne]
      exact hinv.live f hheld
    · intro f hf
      obtain ⟨hheld, hne⟩ := hothers f hf
      rw [hobject f.second hne]
      exact hinv.matched f hheld
  | retime e rest t hold hnew hobject hstatus =>
    obtain ⟨_, hothers⟩ := hinv.others hold
    have hsame : ((⟨t.when_, e.second⟩ :: rest).map Entry.second).Perm (w.holders.map Entry.second) :=
      (hold.map Entry.second).symm
    refine ⟨((hnew.map Entry.second).trans hsame).nodup_iff.mpr hinv.nodup, ?_, ?_, hidle, hsafe.trans hinv.safe⟩
    · intro f hf
      rw [hstatus]
      obtain rfl | hf := List.mem_cons.mp (hnew.mem_iff.mp hf)
      · exact hinv.live e (hold.mem_iff.mpr (by simp))
      · exact hinv.live f (hothers f hf).1
    · intro f hf
      rw [hobject]
      obtain rfl | hf := List.mem_cons.mp (hnew.mem_iff.mp hf)
      · simp
      · rw [Function.update_of_ne (hothers f hf).2]
        exact hinv.matched f (hothers f hf).1

/-- The timer whose cancellation a step executes. -/
def cancels (w : TimerWorld) : TimerLabel → Option Nat
  | .cancelTimer timer => some timer
  | .task =>
    match w.phase, w.tasks with
    | .running, .cancelTimer timer :: _ => some timer
    | _, _ => none
  | _ => none

/-- A cancellation is executed only while its timer is in `timers_`. -/
def CancelsPending (w : TimerWorld) (l : TimerLabel) : Prop :=
  ∀ timer ∈ w.cancels l, timer ∈ w.timers_.map Entry.second

/-- Each timer is cancelled at most once, and only while it has not been deleted. -/
def CancelsOnce (w : TimerWorld) : TimerLabel → Prop
  | .cancelTimer timer => w.status timer = .live ∧ timer ∉ w.requested
  | .cancelTimerElsewhere timer => w.status timer = .live ∧ timer ∉ w.requested
  | _ => True

instance (w : TimerWorld) (l : TimerLabel) : Decidable (w.CancelsPending l) :=
  inferInstanceAs (Decidable (∀ timer ∈ w.cancels l, timer ∈ w.timers_.map Entry.second))

instance decidableCancelsOnce (w : TimerWorld) : ∀ l, Decidable (w.CancelsOnce l)
  | .cancelTimer timer | .cancelTimerElsewhere timer =>
    inferInstanceAs (Decidable (w.status timer = .live ∧ timer ∉ w.requested))
  | .tick _ | .poll | .addTimer _ _ _ | .addTimerElsewhere _ _ _ | .pushOther | .handleRead | .fire | .settle
  | .endRead | .swap | .task | .endTasks => inferInstanceAs (Decidable True)

/-- The body of `cancelTimer` on a timer of the set removes its holder and deletes it. -/
private theorem Owned.cancel {w w' : TimerWorld} {timer : Nat} (hinv : w.Owned)
    (hpending : timer ∈ w.timers_.map Entry.second) (hqueue : w'.toTimerQueue = w.cancelTimerInLoop timer)
    (hrest : w'.phase.entries ++ (arriving w'.tasks ++ arriving w'.pendingTasks_) =
      w.phase.entries ++ (arriving w.tasks ++ arriving w.pendingTasks_))
    (hidle : w'.phase ≠ .running → w'.tasks = []) :
    w.Moves w' ∧ (w'.phase ≠ .running → w'.tasks = []) ∧ w'.misuses = w.misuses := by
  obtain ⟨e, he, rfl⟩ := List.mem_map.mp hpending
  have hheld : e ∈ w.holders := List.mem_append_left _ he
  obtain ⟨htimers, hobject, hstatus, hmisuses⟩ := TimerQueue.cancelTimerInLoop_spec (hinv.live e hheld)
  rw [hinv.matched e hheld] at htimers
  rw [← hqueue] at htimers hobject hstatus hmisuses
  refine ⟨.discard e ?_ ?_ hstatus, hidle, hmisuses⟩
  · unfold holders
    rw [htimers, hrest]
    exact (List.perm_cons_erase he).append_right _
  · intro timer hne
    rw [hobject, Function.update_of_ne hne]

/-- In a queue that is owned and executes its cancellations while their timers are in the set, a step makes one
of the moves, and uses no deleted timer. -/
theorem Owned.step_moves {w w' : TimerWorld} {l : TimerLabel} (hinv : w.Owned) (hcancels : w.CancelsPending l)
    (hstep : w.step l = some w') :
    w.Moves w' ∧ (w'.phase ≠ .running → w'.tasks = []) ∧ w'.misuses = w.misuses := by
  have hnotIn {e : Entry} (hfresh : w.status e.second = .unused) : e ∉ w.timers_ :=
    fun he => hinv.fresh_ne hfresh e (List.mem_append_left _ he) rfl
  cases l with
  | tick duration =>
    simp only [TimerWorld.step, Option.ite_none_right_eq_some, Option.some.injEq] at hstep
    obtain ⟨_, rfl⟩ := hstep
    exact ⟨.same (List.Perm.refl _) rfl rfl, hinv.idle, rfl⟩
  | poll =>
    simp only [TimerWorld.step, Option.ite_none_right_eq_some, Option.some.injEq] at hstep
    obtain ⟨hphase, rfl⟩ := hstep
    have hempty := hinv.idle (by simp [hphase])
    refine ⟨.same ?_ rfl rfl, (fun _ => hempty), rfl⟩
    simp [holders, hphase, TimerPhase.entries]
  | addTimer timer when_ interval =>
    simp only [TimerWorld.step, Option.ite_none_right_eq_some, Option.some.injEq] at hstep
    obtain ⟨⟨_, _, hfresh⟩, rfl⟩ := hstep
    have hlive : (w.new timer when_ interval).status timer = .live := by simp [TimerQueue.new]
    obtain ⟨htimers, hobject, hstatus, hmisuses⟩ := TimerQueue.addTimerInLoop_spec hlive when_ w.time
    refine ⟨.create ⟨when_, timer⟩ (Timer.init when_ interval) ?_ hfresh hobject rfl hstatus, hinv.idle, hmisuses⟩
    unfold holders
    dsimp only
    rw [htimers]
    exact (TimerList.insert_perm (hnotIn (e := ⟨when_, timer⟩) hfresh)).append_right _
  | cancelTimer timer =>
    simp only [TimerWorld.step, Option.ite_none_right_eq_some, Option.some.injEq] at hstep
    obtain ⟨_, rfl⟩ := hstep
    exact hinv.cancel (hcancels timer rfl) rfl rfl hinv.idle
  | addTimerElsewhere timer when_ interval =>
    simp only [TimerWorld.step, Option.ite_none_right_eq_some, Option.some.injEq] at hstep
    obtain ⟨⟨_, hfresh⟩, rfl⟩ := hstep
    refine ⟨.create ⟨when_, timer⟩ (Timer.init when_ interval) ?_ hfresh rfl rfl rfl, hinv.idle, rfl⟩
    simp only [holders, EventLoop.push, EventLoop.wakeup, arriving_append, ← List.append_assoc]
    exact List.perm_append_singleton _ _
  | cancelTimerElsewhere timer =>
    simp only [TimerWorld.step, Option.ite_none_right_eq_some, Option.some.injEq] at hstep
    obtain ⟨_, rfl⟩ := hstep
    refine ⟨.same ?_ rfl rfl, hinv.idle, rfl⟩
    simp [holders, EventLoop.push, EventLoop.wakeup, arriving]
  | pushOther =>
    cases hstep
    refine ⟨.same ?_ rfl rfl, hinv.idle, rfl⟩
    simp [holders, EventLoop.push, EventLoop.wakeup, arriving]
  | handleRead =>
    simp only [TimerWorld.step, Option.ite_none_right_eq_some, Option.some.injEq] at hstep
    obtain ⟨hphase, rfl⟩ := hstep
    have hempty := hinv.idle (by simp [hphase])
    refine ⟨.same ?_ rfl rfl, (fun _ => hempty), rfl⟩
    simp only [holders, hphase, TimerPhase.entries, TimerQueue.getExpired, List.nil_append]
    refine (List.perm_append_comm_assoc _ _ _).trans ?_
    rw [← List.append_assoc, List.takeWhile_append_dropWhile]
  | fire =>
    simp only [TimerWorld.step] at hstep
    split at hstep
    · rename_i now e rest hphase
      cases hstep
      have hempty := hinv.idle (by simp [hphase])
      have hlive : w.status e.second = .live := hinv.live e (by simp [holders, hphase, TimerPhase.entries])
      obtain ⟨htimers, hobject, hstatus, hmisuses⟩ := TimerQueue.fireTimer_spec hlive now
      refine ⟨.same ?_ hobject hstatus, (fun _ => hempty), hmisuses⟩
      simp [holders, hphase, TimerPhase.entries, htimers]
    · cases hstep
  | settle =>
    simp only [TimerWorld.step] at hstep
    split at hstep
    · rename_i now e rest ran hphase
      cases hstep
      have hempty := hinv.idle (by simp [hphase])
      have hlive : w.status e.second = .live := hinv.live e (by simp [holders, hphase, TimerPhase.entries])
      have hold : w.holders.Perm
          (e :: (w.timers_ ++ (rest ++ (arriving w.tasks ++ arriving w.pendingTasks_)))) := by
        simp only [holders, hphase, TimerPhase.entries, List.cons_append]
        exact List.perm_middle
      obtain ⟨hmisuses, ⟨htimers, hobject, hstatus⟩ | ⟨htimers, hobject, hstatus⟩⟩ :=
        TimerQueue.settleTimer_spec hlive
      · refine ⟨.retime e _ _ hold ?_ hobject hstatus, fun _ => hempty, hmisuses⟩
        have hnew : ⟨(w.object e.second).restart.when_, e.second⟩ ∉ w.timers_ := by
          intro hmem
          exact ((hinv.others hold).2 _ (List.mem_append_left _ hmem)).2 rfl
        simp only [holders, TimerPhase.entries, htimers]
        exact (TimerList.insert_perm hnew).append_right _
      · refine ⟨.discard e ?_ (fun timer _ => by rw [hobject]) hstatus, fun _ => hempty, hmisuses⟩
        simpa only [holders, TimerPhase.entries, htimers] using hold
    · cases hstep
  | endRead =>
    simp only [TimerWorld.step] at hstep
    split at hstep
    · rename_i now hphase
      cases hstep
      have hempty := hinv.idle (by simp [hphase])
      have hrearm : (w.rearm w.time).timers_ = w.timers_ ∧ (w.rearm w.time).object = w.object ∧
          (w.rearm w.time).status = w.status ∧ (w.rearm w.time).misuses = w.misuses := by
        unfold TimerQueue.rearm
        split <;> exact ⟨rfl, rfl, rfl, rfl⟩
      obtain ⟨htimers, hobject, hstatus, hmisuses⟩ := hrearm
      refine ⟨.same ?_ hobject hstatus, (fun _ => hempty), hmisuses⟩
      simp [holders, hphase, TimerPhase.entries, htimers]
    · cases hstep
  | swap =>
    simp only [TimerWorld.step, Option.ite_none_right_eq_some, Option.some.injEq] at hstep
    obtain ⟨hphase, rfl⟩ := hstep
    have hempty := hinv.idle (by simp [hphase])
    refine ⟨.same ?_ rfl rfl, (fun h => (h rfl).elim), rfl⟩
    simp [holders, hphase, TimerPhase.entries, hempty, arriving]
  | task =>
    simp only [TimerWorld.step] at hstep
    split at hstep
    · rename_i task rest hphase htasks
      cases hstep
      have hrunning {tasks : List TimerTask} (h : w.phase ≠ .running) : tasks = [] := (h hphase).elim
      cases task with
      | addTimer when_ timer =>
        have hold : w.holders.Perm (⟨when_, timer⟩ :: (w.timers_ ++ (arriving rest ++ arriving w.pendingTasks_))) := by
          simp only [holders, hphase, TimerPhase.entries, htasks, arriving, List.filterMap_cons, List.nil_append,
            List.cons_append]
          exact List.perm_middle
        have hlive : w.status timer = .live := hinv.live ⟨when_, timer⟩ (hold.mem_iff.mpr (by simp))
        have hnew : (⟨when_, timer⟩ : Entry) ∉ w.timers_ := by
          intro hmem
          exact ((hinv.others hold).2 _ (List.mem_append_left _ hmem)).2 rfl
        obtain ⟨htimers, hobject, hstatus, hmisuses⟩ := TimerQueue.addTimerInLoop_spec hlive when_ w.time
        refine ⟨.same ?_ hobject hstatus, hrunning, hmisuses⟩
        refine List.Perm.trans ?_ hold.symm
        simp only [holders, hphase, TimerPhase.entries, runTask, htimers, List.nil_append]
        exact (TimerList.insert_perm hnew).append_right _
      | cancelTimer timer =>
        refine hinv.cancel (hcancels timer (by simp [cancels, hphase, htasks])) rfl ?_ hrunning
        simp [htasks, arriving]
      | other =>
        refine ⟨.same ?_ rfl rfl, hrunning, rfl⟩
        simp [holders, htasks, arriving, runTask]
    · cases hstep
  | endTasks =>
    simp only [TimerWorld.step, Option.ite_none_right_eq_some, Option.some.injEq] at hstep
    obtain ⟨⟨hphase, htasks⟩, rfl⟩ := hstep
    refine ⟨.same ?_ rfl rfl, (fun _ => htasks), rfl⟩
    simp [holders, hphase, TimerPhase.entries]

theorem Owned.step {w w' : TimerWorld} {l : TimerLabel} (hinv : w.Owned) (hcancels : w.CancelsPending l)
    (hstep : w.step l = some w') : w'.Owned := by
  obtain ⟨hmoves, hidle, hsafe⟩ := hinv.step_moves hcancels hstep
  exact hmoves.owned hinv hidle hsafe

theorem init_owned (time : Timestamp) : (init time).Owned := by
  refine ⟨List.nodup_nil, ?_, ?_, fun _ => rfl, rfl⟩
  · intro e he
    cases he
  · intro e he
    cases he

/-- Every timer that exists has a holder. -/
def Held (w : TimerWorld) : Prop := ∀ timer, w.status timer = .live → timer ∈ w.holders.map Entry.second

theorem Moves.held {w w' : TimerWorld} (hmoves : w.Moves w') (hheld : w.Held) : w'.Held := by
  intro timer hlive
  cases hmoves with
  | same hholders hobject hstatus =>
    rw [hstatus] at hlive
    exact (hholders.map Entry.second).mem_iff.mpr (hheld timer hlive)
  | create e t hholders hfresh hobject hwhen hstatus =>
    rw [(hholders.map Entry.second).mem_iff, List.map_cons, List.mem_cons]
    by_cases heq : timer = e.second
    · exact Or.inl heq
    · rw [hstatus, Function.update_of_ne heq] at hlive
      exact Or.inr (hheld timer hlive)
  | discard e hholders hobject hstatus =>
    have hne : timer ≠ e.second := by
      rintro rfl
      simp [hstatus] at hlive
    rw [hstatus, Function.update_of_ne hne] at hlive
    have hmem := (hholders.map Entry.second).mem_iff.mp (hheld timer hlive)
    exact (List.mem_cons.mp hmem).resolve_left hne
  | retime e rest t hold hnew hobject hstatus =>
    rw [hstatus] at hlive
    have hmem := (hold.map Entry.second).mem_iff.mp (hheld timer hlive)
    exact (hnew.map Entry.second).mem_iff.mpr hmem

/-- Holders hold existing timers, and existing timers have holders. -/
structure Kept (w : TimerWorld) : Prop where
  owned : w.Owned
  held : w.Held

theorem init_kept (time : Timestamp) : (init time).Kept := ⟨init_owned time, fun _ hlive => by cases hlive⟩

theorem Kept.step_pending {w w' : TimerWorld} {l : TimerLabel} (hinv : w.Kept) (hcancels : w.CancelsPending l)
    (hstep : w.step l = some w') : w'.Kept ∧ w.Moves w' := by
  obtain ⟨hmoves, hidle, hsafe⟩ := hinv.owned.step_moves hcancels hstep
  exact ⟨⟨hmoves.owned hinv.owned hidle hsafe, hmoves.held hinv.held⟩, hmoves⟩

/-- In every run that executes its cancellations while their timers are in the set, every timer is deleted at
most once and not used after its deletion. -/
theorem timers_unmisused_when_cancelled_pending {time : Timestamp} {labels : List TimerLabel} {w : TimerWorld}
    (hcancels : Run.Along step CancelsPending (init time) labels)
    (hrun : Run.exec step (init time) labels = some w) : w.misuses = [] := by
  have hinv : w.Owned :=
    Run.exec_invariant (fun _ _ _ hinv hl hstep => hinv.step hl hstep) (init_owned time) hcancels hrun
  exact hinv.safe

theorem timers_unmisused_repeating : ∃ w : TimerWorld,
    Run.exec step (init 0)
      [.addTimer 1 5 10, .addTimerElsewhere 2 6 0, .tick 7, .handleRead, .fire, .cancelTimerElsewhere 2, .settle,
        .endRead, .swap, .task, .task, .cancelTimer 1] = some w ∧
    w.runs = [(1, 7)] ∧ w.status 1 = .deleted ∧ w.status 2 = .deleted ∧ w.misuses = [] := by
  apply Run.Reaches.exists_of (p := fun w => w.runs = [(1, 7)] ∧ w.status 1 = .deleted ∧ w.status 2 = .deleted)
  · decide +kernel
  · rintro w hrun ⟨hruns, hone, htwo⟩
    exact ⟨hruns, hone, htwo, timers_unmisused_when_cancelled_pending (by decide +kernel) hrun⟩

/-- A repeating timer that cancels itself in its callback is asked whether it is cancelled, and deleted, after
its deletion. -/
theorem self_cancelled_timer_misused : ∃ w : TimerWorld,
    Run.Along step CancelsOnce (init 0) [.addTimer 1 5 10, .tick 7, .handleRead, .fire, .cancelTimer 1, .settle] ∧
    Run.exec step (init 0) [.addTimer 1 5 10, .tick 7, .handleRead, .fire, .cancelTimer 1, .settle] = some w ∧
    w.misuses = [(1, .canceled), (1, .delete)] := by
  obtain ⟨w, hrun, hmisuses⟩ := Run.Reaches.exists
    (show Run.Reaches step (init 0) [.addTimer 1 5 10, .tick 7, .handleRead, .fire, .cancelTimer 1, .settle]
      (fun w => w.misuses = [(1, .canceled), (1, .delete)]) by decide +kernel)
  exact ⟨w, by decide +kernel, hrun, hmisuses⟩

end TimerWorld

end mudong.ev
