import Mathlib.Order.MinMax
import Mudong.TimerQueue

namespace mudong.ev

theorem Entry.lt.first_le {e f : Entry} (h : e.lt f) : e.first ≤ f.first := by
  obtain h | ⟨h, _⟩ := h
  · exact h.le
  · exact h.le

theorem Entry.first_le_of_not_lt {e f : Entry} (h : ¬e.lt f) : f.first ≤ e.first :=
  not_lt.mp fun hlt => h (Or.inl hlt)

/-- The split at the sentinel `(now + 1ns, nullptr)` goes by the times alone. -/
theorem Entry.lt_end_iff {e : Entry} {now : Timestamp} : e.lt ⟨now + 1, nullptr⟩ ↔ e.first < now + 1 := by
  constructor
  · rintro (hlt | ⟨_, hlt⟩)
    · exact hlt
    · exact absurd hlt (Nat.not_lt_zero _)
  · exact .inl

namespace TimerList

/-- The entries come in the order of their times. -/
def Sorted (timers : List Entry) : Prop := timers.Pairwise fun e f => e.first ≤ f.first

theorem Sorted.head_le {timers : List Entry} (h : Sorted timers) {e f : Entry} (he : timers.head? = some e)
    (hf : f ∈ timers) : e.first ≤ f.first := by
  cases timers with
  | nil => cases hf
  | cons g rest =>
    obtain rfl : g = e := by simpa using he
    obtain rfl | hf := List.mem_cons.mp hf
    · exact le_rfl
    · exact (List.pairwise_cons.mp h).1 f hf

/-- The insertion in front of the first later entry keeps any order `S` that agrees with that of the set. -/
theorem pairwise_orderedInsert {S : Entry → Entry → Prop} {timers : List Entry} {e : Entry}
    (hbefore : ∀ f g, e.lt f → S f g → S e g) (hlt : ∀ f ∈ timers, e.lt f → S e f)
    (hnot : ∀ f ∈ timers, ¬e.lt f → S f e) (h : timers.Pairwise S) :
    (timers.orderedInsert Entry.lt e).Pairwise S := by
  induction timers with
  | nil => exact List.pairwise_singleton S e
  | cons f rest ih =>
    obtain ⟨hfirst, hrest⟩ := List.pairwise_cons.mp h
    rw [List.orderedInsert_cons]
    split
    · rename_i hef
      refine List.pairwise_cons.mpr ⟨?_, h⟩
      intro g hg
      obtain rfl | hg := List.mem_cons.mp hg
      · exact hlt g List.mem_cons_self hef
      · exact hbefore f g hef (hfirst g hg)
    · rename_i hef
      refine List.pairwise_cons.mpr ⟨?_, ih (fun g hg => hlt g (List.mem_cons_of_mem f hg))
        (fun g hg => hnot g (List.mem_cons_of_mem f hg)) hrest⟩
      intro g hg
      obtain rfl | hg := (List.mem_orderedInsert Entry.lt).mp hg
      · exact hnot f List.mem_cons_self hef
      · exact hfirst g hg

theorem Sorted.orderedInsert {timers : List Entry} (h : Sorted timers) (e : Entry) :
    Sorted (timers.orderedInsert Entry.lt e) :=
  pairwise_orderedInsert (fun _ _ hlt hle => hlt.first_le.trans hle) (fun _ _ hlt => hlt.first_le)
    (fun _ _ hnot => Entry.first_le_of_not_lt hnot) h

theorem Sorted.insert {timers : List Entry} (h : Sorted timers) (e : Entry) : Sorted (insert timers e).1 := by
  unfold TimerList.insert
  split
  · exact h
  · exact h.orderedInsert e

/-- An insertion is either first or leaves the first entry in place. -/
theorem head_insert (timers : List Entry) (e : Entry) :
    (insert timers e).1.head? = some e ∨ (insert timers e).1.head? = timers.head? := by
  unfold TimerList.insert
  split
  · exact Or.inr rfl
  · cases timers with
    | nil => exact Or.inl rfl
    | cons f rest =>
      rw [List.orderedInsert_cons]
      split
      · exact Or.inl rfl
      · exact Or.inr rfl

end TimerList

namespace TimerQueue

/-- The insertion of `addTimer` sets the descriptor exactly when the new entry is the first. -/
theorem addTimerInLoop_timerfd (q : TimerQueue) (when_ : Timestamp) (timer : Nat) (now : Timestamp) :
    (q.addTimerInLoop when_ timer now).timers_ = (TimerList.insert q.timers_ ⟨when_, timer⟩).1 ∧
      (q.addTimerInLoop when_ timer now).timerfd_ =
        if (TimerList.insert q.timers_ ⟨when_, timer⟩).1.head? = some ⟨when_, timer⟩ then timerfdSet when_ now
        else q.timerfd_ := by
  unfold addTimerInLoop
  dsimp only [check, access]
  split
  · exact ⟨rfl, rfl⟩
  · exact ⟨rfl, rfl⟩

theorem cancelTimerInLoop_timerfd (q : TimerQueue) (timer : Nat) :
    (q.cancelTimerInLoop timer).timers_ = q.timers_.erase ⟨(q.object timer).when_, timer⟩ ∧
      (q.cancelTimerInLoop timer).timerfd_ = q.timerfd_ := by
  constructor
  · simp [cancelTimerInLoop, delete, check, access, Timer.cancel]
  · rfl

theorem settleTimer_sorted {q : TimerQueue} (h : TimerList.Sorted q.timers_) (e : Entry) :
    TimerList.Sorted (q.settleTimer e).timers_ := by
  by_cases hdeletes : (q.object e.second).canceled_ = true ∨ (q.object e.second).repeat_ = false
  · rw [(settleTimer_deletes hdeletes).1]
    exact h
  · simp only [not_or, Bool.not_eq_true, Bool.not_eq_false] at hdeletes
    rw [(settleTimer_repeats hdeletes.1 hdeletes.2).1]
    exact h.insert _

end TimerQueue

/-- The difference `when - clock::now()` does not fall below the range of its type, or so far below it that it comes
out under a millisecond again. -/
def InRange (when_ now : Timestamp) : Prop :=
  -2 ^ 63 ≤ when_.toInt - now.toInt ∨ when_.toInt - now.toInt + 2 ^ 64 ≤ 1000000

instance decidableInRange (when_ now : Timestamp) : Decidable (InRange when_ now) :=
  inferInstanceAs (Decidable (_ ∨ _))

/-- The descriptor is set for the time asked for, or for the next millisecond, exactly if the difference is in range. -/
theorem timerfdSet_deadline_le_iff {when_ now : Timestamp} :
    now.toInt + (durationFromNow when_ now).toInt ≤ max when_.toInt (now.toInt + 1000000) ↔ InRange when_ now := by
  have hmillisecond : (1000000 : Int64).toInt = 1000000 := by decide
  have hdifference := Int64.toInt_sub_le_max_iff (a := when_) (b := now) (c := 1000000) (by decide)
  rw [InRange, ← hdifference, durationFromNow, Int64.toInt_max, hmillisecond]
  omega

/-- `handleRead` is under way. -/
def TimerPhase.inHandleRead : TimerPhase → Bool
  | .expiring _ _ => true
  | .calling _ _ _ _ => true
  | _ => false

namespace TimerWorld

/-- The entry for which the insertion of an entry sets the descriptor, if it does. -/
def insertArms (w : TimerWorld) (e : Entry) : List Entry :=
  if (TimerList.insert w.timers_ e).1.head? = some e then [e] else []

/-- The entry for whose time a step calls `timerfdSet`, if it does. -/
def arms (w : TimerWorld) : TimerLabel → List Entry
  | .addTimer timer when_ _ => w.insertArms ⟨when_, timer⟩
  | .task =>
    match w.tasks with
    | .addTimer when_ timer :: _ => w.insertArms ⟨when_, timer⟩
    | _ => []
  | .endRead => w.timers_.head?.toList
  | _ => []

/-- The time at which a step calls `timerfdSet`, if it does. -/
def sets (w : TimerWorld) (l : TimerLabel) : List Timestamp := (w.arms l).map fun _ => w.time

/-- Every setting of the descriptor is for a time whose distance from the present is in range. -/
def ArmsInRange (w : TimerWorld) (l : TimerLabel) : Prop := ∀ e ∈ w.arms l, InRange e.first w.time

instance decidableArmsInRange (w : TimerWorld) (l : TimerLabel) : Decidable (w.ArmsInRange l) :=
  inferInstanceAs (Decidable (∀ e ∈ w.arms l, InRange e.first w.time))

/-- The descriptor has an unread expiry, or it will expire no later than the first timer, or a millisecond
after its latest setting. -/
def Covers (settings : List Timestamp) (w : TimerWorld) : Prop :=
  ∀ e, w.timers_.head? = some e → w.timerfd_.unread = true ∨
    ∃ t deadline, settings.getLast? = some t ∧ w.timerfd_.deadline = some deadline ∧
      deadline ≤ max e.first.toInt (t.toInt + 1000000)

structure DeadlineInv (settings : List Timestamp) (w : TimerWorld) : Prop where
  sorted : TimerList.Sorted w.timers_
  covers : w.phase.inHandleRead = false → Covers settings w

/-- A fresh setting covers the entry it was made for. -/
theorem Covers.of_set {settings : List Timestamp} {w : TimerWorld} {e : Entry} {now : Timestamp}
    (hhead : w.timers_.head? = some e) (hfd : w.timerfd_ = timerfdSet e.first now) (hrange : InRange e.first now) :
    Covers (settings ++ [now]) w := by
  intro f hf
  obtain rfl : e = f := Option.some.inj (hhead.symm.trans hf)
  exact Or.inr ⟨now, _, by simp, by rw [hfd]; rfl, timerfdSet_deadline_le_iff.mpr hrange⟩

/-- A descriptor left alone goes on covering a set whose first entry comes no earlier. -/
theorem Covers.of_later {settings : List Timestamp} {w w' : TimerWorld} (h : Covers settings w)
    (hfd : w'.timerfd_ = w.timerfd_)
    (hhead : ∀ e', w'.timers_.head? = some e' → ∃ e, w.timers_.head? = some e ∧ e.first ≤ e'.first) :
    Covers settings w' := by
  intro e' he'
  obtain ⟨e, he, hle⟩ := hhead e' he'
  rw [hfd]
  obtain hunread | ⟨t, deadline, ht, hdeadline, hbound⟩ := h e he
  · exact Or.inl hunread
  · exact Or.inr ⟨t, deadline, ht, hdeadline, hbound.trans (max_le_max_right _ (Int64.le_iff_toInt_le.mp hle))⟩

theorem Covers.expire {settings : List Timestamp} {w : TimerWorld} (h : Covers settings w) (time now : Timestamp) :
    Covers settings { w with time, timerfd_ := w.timerfd_.expire now } := by
  intro e he
  obtain hunread | ⟨t, deadline, ht, hdeadline, hbound⟩ := h e he
  · refine Or.inl ?_
    unfold Timerfd.expire
    split
    · split
      · rfl
      · exact hunread
    · exact hunread
  · by_cases hdue : deadline ≤ now.toInt
    · exact Or.inl (by simp [Timerfd.expire, hdeadline, hdue])
    · exact Or.inr ⟨t, deadline, ht, by simp [Timerfd.expire, hdeadline, hdue], hbound⟩

/-- The set and the descriptor are left alone. -/
private theorem DeadlineInv.same {settings : List Timestamp} {w w' : TimerWorld} (hinv : DeadlineInv settings w)
    (htimers : w'.timers_ = w.timers_) (hfd : w'.timerfd_ = w.timerfd_)
    (hphase : w'.phase.inHandleRead = false → w.phase.inHandleRead = false) :
    DeadlineInv (settings ++ []) w' := by
  rw [List.append_nil]
  refine ⟨by rw [htimers]; exact hinv.sorted, fun h => (hinv.covers (hphase h)).of_later hfd ?_⟩
  intro e he
  exact ⟨e, by rw [← htimers]; exact he, le_rfl⟩

private theorem DeadlineInv.add {settings : List Timestamp} {w w' : TimerWorld} {when_ : Timestamp} {timer : Nat}
    (hinv : DeadlineInv settings w) (htimers : w'.timers_ = (TimerList.insert w.timers_ ⟨when_, timer⟩).1)
    (hfd : w'.timerfd_ = if (TimerList.insert w.timers_ ⟨when_, timer⟩).1.head? = some ⟨when_, timer⟩ then
      timerfdSet when_ w.time else w.timerfd_) (hphase : w'.phase = w.phase)
    (hrange : ∀ e ∈ w.insertArms ⟨when_, timer⟩, InRange e.first w.time) :
    DeadlineInv (settings ++ (w.insertArms ⟨when_, timer⟩).map fun _ => w.time) w' := by
  refine ⟨by rw [htimers]; exact hinv.sorted.insert _, fun h => ?_⟩
  rw [hphase] at h
  unfold insertArms at hrange ⊢
  by_cases hfirst : (TimerList.insert w.timers_ ⟨when_, timer⟩).1.head? = some ⟨when_, timer⟩
  · rw [if_pos hfirst] at hfd hrange ⊢
    have hnew : InRange when_ w.time := hrange ⟨when_, timer⟩ (List.mem_singleton_self _)
    have hhead : w'.timers_.head? = some ⟨when_, timer⟩ := by
      rw [htimers]
      exact hfirst
    exact Covers.of_set hhead hfd hnew
  · rw [if_neg hfirst] at hfd ⊢
    rw [List.map_nil, List.append_nil]
    refine (hinv.covers h).of_later hfd ?_
    intro e he
    rw [htimers, (TimerList.head_insert _ _).resolve_left hfirst] at he
    exact ⟨e, he, le_rfl⟩

private theorem DeadlineInv.cancel {settings : List Timestamp} {w w' : TimerWorld} {e : Entry}
    (hinv : DeadlineInv settings w) (htimers : w'.timers_ = w.timers_.erase e) (hfd : w'.timerfd_ = w.timerfd_)
    (hphase : w'.phase = w.phase) : DeadlineInv (settings ++ []) w' := by
  rw [List.append_nil]
  refine ⟨by rw [htimers]; exact hinv.sorted.sublist List.erase_sublist, fun h => ?_⟩
  rw [hphase] at h
  refine (hinv.covers h).of_later hfd ?_
  intro f hf
  rw [htimers] at hf
  have hmem : f ∈ w.timers_ := List.mem_of_mem_erase (List.mem_of_head? hf)
  obtain ⟨first, hfirst⟩ : ∃ first, w.timers_.head? = some first := by
    cases htimers : w.timers_ with
    | nil => simp [htimers] at hmem
    | cons first rest => exact ⟨first, rfl⟩
  exact ⟨first, hfirst, hinv.sorted.head_le hfirst hmem⟩

theorem DeadlineInv.step {settings : List Timestamp} {w w' : TimerWorld} {l : TimerLabel}
    (hinv : DeadlineInv settings w) (hrange : w.ArmsInRange l) (hstep : w.step l = some w') :
    DeadlineInv (settings ++ w.sets l) w' := by
  cases l with
  | tick duration =>
    simp only [TimerWorld.step, Option.ite_none_right_eq_some, Option.some.injEq] at hstep
    obtain ⟨_, rfl⟩ := hstep
    simp only [sets, arms, List.map_nil, List.append_nil]
    exact ⟨hinv.sorted, fun h => (hinv.covers h).expire _ _⟩
  | poll =>
    simp only [TimerWorld.step, Option.ite_none_right_eq_some, Option.some.injEq] at hstep
    obtain ⟨hphase, rfl⟩ := hstep
    exact hinv.same rfl rfl (fun _ => by rw [hphase]; rfl)
  | addTimer timer when_ interval =>
    simp only [TimerWorld.step, Option.ite_none_right_eq_some, Option.some.injEq] at hstep
    obtain ⟨_, rfl⟩ := hstep
    obtain ⟨htimers, hfd⟩ := TimerQueue.addTimerInLoop_timerfd (w.new timer when_ interval) when_ timer w.time
    exact hinv.add htimers hfd rfl hrange
  | cancelTimer timer =>
    simp only [TimerWorld.step, Option.ite_none_right_eq_some, Option.some.injEq] at hstep
    obtain ⟨_, rfl⟩ := hstep
    obtain ⟨htimers, hfd⟩ := TimerQueue.cancelTimerInLoop_timerfd w.toTimerQueue timer
    exact hinv.cancel htimers hfd rfl
  | addTimerElsewhere timer when_ interval =>
    simp only [TimerWorld.step, Option.ite_none_right_eq_some, Option.some.injEq] at hstep
    obtain ⟨_, rfl⟩ := hstep
    exact hinv.same rfl rfl id
  | cancelTimerElsewhere timer =>
    simp only [TimerWorld.step, Option.ite_none_right_eq_some, Option.some.injEq] at hstep
    obtain ⟨_, rfl⟩ := hstep
    exact hinv.same rfl rfl id
  | pushOther =>
    cases hstep
    exact hinv.same rfl rfl id
  | handleRead =>
    simp only [TimerWorld.step, Option.ite_none_right_eq_some, Option.some.injEq] at hstep
    obtain ⟨_, rfl⟩ := hstep
    simp only [sets, arms, List.map_nil, List.append_nil]
    exact ⟨hinv.sorted.sublist (List.dropWhile_sublist _), fun h => Bool.noConfusion h⟩
  | fire =>
    simp only [TimerWorld.step] at hstep
    split at hstep
    · rename_i now e rest hphase
      cases hstep
      have hsame := w.fireTimer_same now e
      simp only [Prod.mk.injEq] at hsame
      refine ⟨?_, fun h => Bool.noConfusion h⟩
      dsimp only
      rw [hsame.2.2]
      exact hinv.sorted
    · cases hstep
  | settle =>
    simp only [TimerWorld.step] at hstep
    split at hstep
    · rename_i now e rest ran hphase
      cases hstep
      exact ⟨TimerQueue.settleTimer_sorted hinv.sorted e, fun h => Bool.noConfusion h⟩
    · cases hstep
  | endRead =>
    simp only [TimerWorld.step] at hstep
    split at hstep
    · rename_i now hphase
      cases hstep
      simp only [ArmsInRange, sets, arms, TimerQueue.rearm] at hrange ⊢
      cases htimers : w.timers_ with
      | nil =>
        simp only [List.head?_nil, Option.toList_none, List.map_nil, List.append_nil]
        refine ⟨hinv.sorted, fun _ e he => ?_⟩
        simp [htimers] at he
      | cons e rest =>
        have hsorted := hinv.sorted
        rw [htimers] at hsorted hrange
        exact ⟨hsorted, fun _ => .of_set rfl rfl (hrange e (List.mem_singleton_self e))⟩
    · cases hstep
  | swap =>
    simp only [TimerWorld.step, Option.ite_none_right_eq_some, Option.some.injEq] at hstep
    obtain ⟨hphase, rfl⟩ := hstep
    exact hinv.same rfl rfl (fun _ => by rw [hphase]; rfl)
  | task =>
    simp only [TimerWorld.step] at hstep
    split at hstep
    · rename_i task rest hphase htasks
      cases hstep
      simp only [ArmsInRange, sets, arms, htasks] at hrange ⊢
      cases task with
      | addTimer when_ timer =>
        obtain ⟨htimers, hfd⟩ := TimerQueue.addTimerInLoop_timerfd w.toTimerQueue when_ timer w.time
        exact hinv.add htimers hfd rfl hrange
      | cancelTimer timer =>
        obtain ⟨htimers, hfd⟩ := TimerQueue.cancelTimerInLoop_timerfd w.toTimerQueue timer
        exact hinv.cancel htimers hfd rfl
      | other => exact hinv.same rfl rfl id
    · cases hstep
  | endTasks =>
    simp only [TimerWorld.step, Option.ite_none_right_eq_some, Option.some.injEq] at hstep
    obtain ⟨⟨hphase, _⟩, rfl⟩ := hstep
    exact hinv.same rfl rfl (fun _ => by rw [hphase]; rfl)

/-- A step that sets the descriptor does so for the entry that is then the first. -/
theorem step_arms {w w' : TimerWorld} {l : TimerLabel} {e : Entry} (he : e ∈ w.arms l) (hstep : w.step l = some w') :
    w'.timers_.head? = some e ∧ w'.timerfd_ = timerfdSet e.first w.time := by
  have hinsert {when_ : Timestamp} {timer : Nat} (he : e ∈ w.insertArms ⟨when_, timer⟩)
      (htimers : w'.timers_ = (TimerList.insert w.timers_ ⟨when_, timer⟩).1)
      (hfd : w'.timerfd_ = if (TimerList.insert w.timers_ ⟨when_, timer⟩).1.head? = some ⟨when_, timer⟩ then
        timerfdSet when_ w.time else w.timerfd_) :
      w'.timers_.head? = some e ∧ w'.timerfd_ = timerfdSet e.first w.time := by
    unfold insertArms at he
    split at he
    · rename_i hfirst
      rw [List.mem_singleton.mp he, htimers, hfd, if_pos hfirst]
      exact ⟨hfirst, rfl⟩
    · cases he
  cases l with
  | addTimer timer when_ interval =>
    simp only [TimerWorld.step, Option.ite_none_right_eq_some, Option.some.injEq] at hstep
    obtain ⟨_, rfl⟩ := hstep
    obtain ⟨htimers, hfd⟩ := TimerQueue.addTimerInLoop_timerfd (w.new timer when_ interval) when_ timer w.time
    exact hinsert he htimers hfd
  | task =>
    simp only [TimerWorld.step] at hstep
    split at hstep
    · rename_i task rest hphase htasks
      cases hstep
      simp only [arms, htasks] at he
      cases task with
      | addTimer when_ timer =>
        obtain ⟨htimers, hfd⟩ := TimerQueue.addTimerInLoop_timerfd w.toTimerQueue when_ timer w.time
        exact hinsert he htimers hfd
      | cancelTimer | other => cases he
    · cases hstep
  | endRead =>
    simp only [TimerWorld.step] at hstep
    split at hstep
    · cases hstep
      have hfirst : w.timers_.head? = some e := Option.mem_toList.mp he
      obtain ⟨rest, htimers⟩ := List.head?_eq_some_iff.mp hfirst
      simp [TimerQueue.rearm, htimers]
    · cases hstep
  | _ => cases he

/-- Where the difference falls below its range, the descriptor is set too late for the first timer. -/
theorem uncovered_when_out_of_range {w w' : TimerWorld} {l : TimerLabel} (hout : ¬w.ArmsInRange l)
    (hstep : w.step l = some w') : ∃ e deadline, w'.timers_.head? = some e ∧ w'.timerfd_.unread = false ∧
      w'.timerfd_.deadline = some deadline ∧ max e.first.toInt (w.time.toInt + 1000000) < deadline := by
  obtain ⟨e, he, hrange⟩ : ∃ e ∈ w.arms l, ¬InRange e.first w.time := by simpa [ArmsInRange] using hout
  have hlate := not_le.mp fun hle => hrange (timerfdSet_deadline_le_iff.mp hle)
  obtain ⟨hfirst, hset⟩ := step_arms he hstep
  exact ⟨e, _, hfirst, by rw [hset]; rfl, by rw [hset]; rfl, hlate⟩

/-- The kernel timer covers the earliest pending timer in every state outside `handleRead`: it has an unread
expiry, or it is armed no later than the time of that timer, or than a millisecond after the latest
setting. No setting may be for a time so early that its distance from the present is out of range. -/
theorem timerfd_covers_earliest {time : Timestamp} {labels : List TimerLabel} {w : TimerWorld} {e : Entry}
    (hrange : Run.Along step ArmsInRange (init time) labels) (hrun : Run.exec step (init time) labels = some w)
    (houtside : w.phase.inHandleRead = false) (hfirst : w.timers_.head? = some e) :
    w.timerfd_.unread = true ∨
      ∃ t deadline, (Run.trace step sets (init time) labels).getLast? = some t ∧
        w.timerfd_.deadline = some deadline ∧ deadline ≤ max e.first.toInt (t.toInt + 1000000) := by
  have hinit : DeadlineInv [] (init time) := ⟨List.Pairwise.nil, fun _ _ he => by cases he⟩
  have hinv := Run.exec_invariant_trace_along (I := DeadlineInv)
    (fun _ _ _ _ hinv hrange hstep => hinv.step hrange hstep) hinit hrange hrun
  exact hinv.covers houtside e hfirst

/-- A callback adds a timer that comes before the one left, and a late dispatch meets both. -/
theorem timerfd_covers_earliest_after_callback : ∃ (w : TimerWorld) (t : Timestamp) (deadline : Int),
    Run.exec step (init 0) [.addTimer 1 5 0, .addTimer 2 9000000 0, .tick 1000007, .handleRead, .fire,
      .addTimer 3 3000000 0, .tick 10, .settle, .endRead] = some w ∧
    w.timers_.head? = some ⟨3000000, 3⟩ ∧ w.timerfd_.unread = false ∧
      (Run.trace step sets (init 0) [.addTimer 1 5 0, .addTimer 2 9000000 0, .tick 1000007, .handleRead, .fire,
        .addTimer 3 3000000 0, .tick 10, .settle, .endRead]).getLast? = some t ∧
      w.timerfd_.deadline = some deadline ∧ deadline ≤ max 3000000 (t.toInt + 1000000) := by
  obtain ⟨w, hrun, hphase, hfirst, hunread⟩ := Run.Reaches.exists
    (show Run.Reaches step (init 0) [.addTimer 1 5 0, .addTimer 2 9000000 0, .tick 1000007, .handleRead, .fire,
      .addTimer 3 3000000 0, .tick 10, .settle, .endRead]
      (fun w => w.phase.inHandleRead = false ∧ w.timers_.head? = some ⟨3000000, 3⟩ ∧ w.timerfd_.unread = false) by
        decide +kernel)
  obtain hexpired | ⟨t, deadline, hset, hdeadline, hbound⟩ :=
    timerfd_covers_earliest (by decide +kernel) hrun hphase hfirst
  · rw [hunread] at hexpired
    cases hexpired
  · exact ⟨w, t, deadline, hrun, hfirst, hunread, hset, hdeadline, hbound⟩

/-- A timer added at the time 1 for the smallest time there is, which has long passed: the difference wraps around to
the largest duration, and the descriptor is set for the far future. -/
theorem runAt_min_uncovered : ∃ w : TimerWorld,
    Run.exec step (init 1) [.addTimer 1 Int64.minValue 0] = some w ∧ w.phase.inHandleRead = false ∧
      w.timers_.head? = some ⟨Int64.minValue, 1⟩ ∧ w.timerfd_ = { deadline := some (2 ^ 63), unread := false } ∧
      Run.trace step sets (init 1) [.addTimer 1 Int64.minValue 0] = [1] ∧
      max Int64.minValue.toInt ((1 : Int64).toInt + 1000000) < 2 ^ 63 := by
  obtain ⟨w, hrun, hphase, hfirst, hset⟩ := Run.Reaches.exists
    (show Run.Reaches step (init 1) [.addTimer 1 Int64.minValue 0] (fun w => w.phase.inHandleRead = false ∧
      w.timers_.head? = some ⟨Int64.minValue, 1⟩ ∧ w.timerfd_ = { deadline := some (2 ^ 63), unread := false }) by
        decide +kernel)
  exact ⟨w, hrun, hphase, hfirst, hset, by decide +kernel, by decide +kernel⟩

end TimerWorld

end mudong.ev
