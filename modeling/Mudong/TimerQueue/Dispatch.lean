import Mudong.TimerQueue.Repeating

namespace mudong.ev

theorem Entry.lt.trans {e f g : Entry} (hef : e.lt f) (hfg : f.lt g) : e.lt g := by
  obtain hef | ⟨hef, hsecond⟩ := hef
  · exact .inl (hef.trans_le hfg.first_le)
  · obtain hfg | ⟨hfg, hsecond'⟩ := hfg
    · exact .inl (hef.trans_lt hfg)
    · exact .inr ⟨hef.trans hfg, hsecond.trans hsecond'⟩

theorem Entry.lt.ne {e f : Entry} (h : e.lt f) : e ≠ f := by
  rintro rfl
  obtain h | ⟨_, h⟩ := h
  · exact lt_irrefl _ h
  · exact lt_irrefl _ h

theorem Entry.lt_of_not_lt {e f : Entry} (hne : e ≠ f) (hlt : ¬e.lt f) : f.lt e := by
  obtain hfirst | hfirst := (Entry.first_le_of_not_lt hlt).lt_or_eq
  · exact .inl hfirst
  · refine .inr ⟨hfirst, ?_⟩
    have hle : f.second ≤ e.second := not_lt.mp fun hsecond => hlt (.inr ⟨hfirst.symm, hsecond⟩)
    refine hle.lt_of_ne fun hsecond => hne ?_
    cases e
    cases f
    simp_all

namespace TimerList

/-- The set of timers, which the insertion of a new element keeps in order. -/
theorem insert_pairwise {timers : List Entry} {e : Entry} (h : timers.Pairwise Entry.lt) (he : e ∉ timers) :
    (insert timers e).1.Pairwise Entry.lt := by
  rw [insert, if_neg he]
  refine pairwise_orderedInsert (fun _ _ => Entry.lt.trans) (fun _ _ => id) (fun f hf hnot => ?_) h
  exact Entry.lt_of_not_lt (fun heq => he (heq ▸ hf)) hnot

theorem takeWhile_before {timers : List Entry} (h : timers.Pairwise Entry.lt) (stop : Timestamp) :
    (timers.takeWhile fun e => decide (e.first < stop)) = timers.filter (fun e => decide (e.first < stop)) ∧
      (timers.dropWhile fun e => decide (e.first < stop)) = timers.filter (fun e => decide (stop ≤ e.first)) := by
  induction timers with
  | nil => exact ⟨rfl, rfl⟩
  | cons e rest ih =>
    obtain ⟨hfirst, hrest⟩ := List.pairwise_cons.mp h
    obtain ⟨htake, hdrop⟩ := ih hrest
    by_cases hbefore : e.first < stop
    · have hnot : ¬stop ≤ e.first := not_le.mpr hbefore
      constructor
      · rw [List.takeWhile_cons_of_pos (by simpa using hbefore), List.filter_cons_of_pos (by simpa using hbefore),
          htake]
      · rw [List.dropWhile_cons_of_pos (by simpa using hbefore), List.filter_cons_of_neg (by simpa using hbefore),
          hdrop]
    · -- Every later entry is at least as late.
      have hlate : ∀ f ∈ e :: rest, stop ≤ f.first := by
        intro f hf
        obtain rfl | hf := List.mem_cons.mp hf
        · exact not_lt.mp hbefore
        · exact (not_lt.mp hbefore).trans (hfirst f hf).first_le
      constructor
      · rw [List.takeWhile_cons_of_neg (by simpa using hbefore), List.filter_eq_nil_iff.mpr]
        intro f hf
        have hle := hlate f hf
        simpa using hle
      · rw [List.dropWhile_cons_of_neg (by simpa using hbefore), List.filter_eq_self.mpr]
        intro f hf
        simpa using hlate f hf

end TimerList

/-- The entry that the call inserts, when it is made in the loop thread. -/
def TimerLabel.adds : TimerLabel → List Entry
  | .addTimer timer when_ _ => [⟨when_, timer⟩]
  | _ => []

namespace TimerWorld

/-- The entries due at the time of the world, and the others. -/
def due (w : TimerWorld) : List Entry := w.timers_.filter fun e => decide (e.first ≤ w.time)
def later (w : TimerWorld) : List Entry := w.timers_.filter fun e => decide (w.time < e.first)

/-- The entries before the sentinel of `getExpired`, and the others. -/
def expired (w : TimerWorld) : List Entry := w.timers_.filter fun e => decide (e.first < w.time + 1)
def left (w : TimerWorld) : List Entry := w.timers_.filter fun e => decide (w.time + 1 ≤ e.first)

/-- The entry under which a fired timer that repeats is put back. -/
def restarted (w : TimerWorld) (e : Entry) : Option Entry :=
  if (w.object e.second).repeat_ then some ⟨e.first + (w.object e.second).interval_, e.second⟩ else none

/-- The content of the set between dispatches: a set of entries, each of an existing timer under its own time.
A cancelled timer has left the set. -/
structure Content (w : TimerWorld) : Prop where
  sorted : w.timers_.Pairwise Entry.lt
  live : ∀ e ∈ w.timers_, w.status e.second = .live
  matched : ∀ e ∈ w.timers_, (w.object e.second).when_ = e.first
  uncanceled : ∀ e ∈ w.timers_, (w.object e.second).canceled_ = false

/-- Two entries of one timer are under one time, and the set holds no entry twice. -/
theorem Content.nodup {w : TimerWorld} (h : w.Content) : (w.timers_.map Entry.second).Nodup := by
  rw [List.nodup_map_iff_inj_on]
  · intro e he f hf hsecond
    have hfirst : e.first = f.first := by rw [← h.matched e he, ← h.matched f hf, hsecond]
    cases e
    cases f
    simp_all
  · exact h.sorted.imp fun hlt => hlt.ne

/-- A dispatch under way. The expired entries are the settled ones, in `done`, and those it still holds; the set holds the
ones left, the settled ones that repeat, and what the callbacks added. -/
structure Dispatching (start : TimerWorld) (done added : List Entry) (w : TimerWorld) : Prop where
  expired : start.expired = done ++ w.phase.entries
  phase : w.phase = .expiring start.time w.phase.entries ∧
      w.runs = start.runs ++ done.map (fun e => (e.second, start.time)) ∨
    ∃ e rest, w.phase = .calling start.time e rest true ∧
      w.runs = start.runs ++ (done ++ [e]).map (fun e => (e.second, start.time))
  timers : w.timers_.Perm (start.left ++ done.filterMap start.restarted ++ added)
  sorted : w.timers_.Pairwise Entry.lt
  nodup : ((w.timers_ ++ w.phase.entries).map Entry.second).Nodup
  live : ∀ e ∈ w.timers_ ++ w.phase.entries, w.status e.second = .live
  same : ∀ e ∈ w.phase.entries, w.object e.second = start.object e.second
  settled : ∀ e ∈ done, (start.object e.second).repeat_ = false → w.status e.second = .deleted ∧
    ∀ f ∈ w.timers_ ++ w.phase.entries, f.second ≠ e.second

theorem getExpired_eq {q : TimerQueue} (h : q.timers_.Pairwise Entry.lt) (now : Timestamp) :
    q.getExpired now = (q.timers_.filter (fun e => decide (e.first < now + 1)),
      { q with timers_ := q.timers_.filter fun e => decide (now + 1 ≤ e.first) }) := by
  obtain ⟨htake, hdrop⟩ := TimerList.takeWhile_before h (now + 1)
  simp only [TimerQueue.getExpired, Entry.lt_end_iff]
  rw [htake, hdrop]

theorem left_append_expired_perm (w : TimerWorld) : (w.left ++ w.expired).Perm w.timers_ := by
  have hsplit := List.filter_append_perm (fun e : Entry => decide (w.time + 1 ≤ e.first)) w.timers_
  have hexpired : w.timers_.filter (fun e => !decide (w.time + 1 ≤ e.first)) = w.expired := by
    apply List.filter_congr
    intro e _
    rw [← decide_not]
    exact decide_eq_decide.mpr not_le
  rw [hexpired] at hsplit
  exact hsplit

/-- `handleRead` begins. -/
theorem Content.begin {w w' : TimerWorld} (h : w.Content) (hstep : w.step .handleRead = some w') :
    Dispatching w [] [] w' := by
  simp only [TimerWorld.step, Option.ite_none_right_eq_some, Option.some.injEq] at hstep
  obtain ⟨_, rfl⟩ := hstep
  have hexpired := getExpired_eq (q := { w.toTimerQueue with timerfd_ := timerfdRead w.timerfd_ }) h.sorted w.time
  rw [hexpired]
  have hmem : ∀ e ∈ w.left ++ w.expired, e ∈ w.timers_ := fun e he => (left_append_expired_perm w).mem_iff.mp he
  refine ⟨rfl, .inl ⟨rfl, by simp⟩, ?_, h.sorted.filter _, ?_, ?_, fun _ _ => rfl, by simp⟩
  · simp [left]
  · exact ((left_append_expired_perm w).map Entry.second).nodup_iff.mpr h.nodup
  · intro e he
    exact h.live e (hmem e he)

section

variable {start w w' : TimerWorld} {done added : List Entry}

/-- Steps that leave the set, the dispatch and the existing timers alone. -/
theorem Dispatching.frame (h : Dispatching start done added w) (hphase : w'.phase = w.phase)
    (htimers : w'.timers_ = w.timers_) (hruns : w'.runs = w.runs)
    (hkept : ∀ timer, w.status timer ≠ .unused →
      w'.status timer = w.status timer ∧ w'.object timer = w.object timer) :
    Dispatching start done added w' := by
  have hused : ∀ e ∈ w.timers_ ++ w.phase.entries, w.status e.second ≠ .unused := by
    intro e he
    rw [h.live e he]
    simp
  refine ⟨by rw [hphase]; exact h.expired, by rw [hphase, hruns]; exact h.phase, by rw [htimers]; exact h.timers,
    by rw [htimers]; exact h.sorted, by rw [htimers, hphase]; exact h.nodup, ?_, ?_, ?_⟩
  · intro e he
    rw [htimers, hphase] at he
    rw [(hkept _ (hused e he)).1]
    exact h.live e he
  · intro e he
    rw [hphase] at he
    rw [(hkept _ (hused e (List.mem_append_right _ he))).2]
    exact h.same e he
  · intro e he hrepeat
    obtain ⟨hdeleted, hgone⟩ := h.settled e he hrepeat
    rw [htimers, hphase, (hkept _ (by simp [hdeleted])).1]
    exact ⟨hdeleted, hgone⟩

/-- A callback adds a timer, at an address of its own. -/
theorem Dispatching.addTimer (h : Dispatching start done added w) {timer : Nat} {when_ : Timestamp}
    {interval : Nanoseconds} (hstep : w.step (.addTimer timer when_ interval) = some w') :
    Dispatching start done (added ++ [⟨when_, timer⟩]) w' := by
  simp only [TimerWorld.step, Option.ite_none_right_eq_some, Option.some.injEq] at hstep
  obtain ⟨⟨_, _, hfresh⟩, rfl⟩ := hstep
  have hlive : (w.new timer when_ interval).status timer = .live := Function.update_self ..
  obtain ⟨htimers, hobject, hstatus, _⟩ := TimerQueue.addTimerInLoop_spec hlive when_ w.time
  have hruns := TimerQueue.addTimerInLoop_runs (w.new timer when_ interval) when_ timer w.time
  have hother : ∀ e ∈ w.timers_ ++ w.phase.entries, e.second ≠ timer := by
    rintro e he rfl
    have hlive := h.live e he
    rw [hfresh] at hlive
    cases hlive
  have hnew : (⟨when_, timer⟩ : Entry) ∉ w.timers_ := fun hmem => hother _ (List.mem_append_left _ hmem) rfl
  have hperm : (TimerList.insert w.timers_ ⟨when_, timer⟩).1.Perm (⟨when_, timer⟩ :: w.timers_) :=
    TimerList.insert_perm hnew
  have hheld : ∀ e, e ∈ (TimerList.insert w.timers_ ⟨when_, timer⟩).1 ++ w.phase.entries →
      e = ⟨when_, timer⟩ ∨ e ∈ w.timers_ ++ w.phase.entries := by
    intro e he
    obtain he | he := List.mem_append.mp he
    · exact (List.mem_cons.mp (hperm.mem_iff.mp he)).imp_right (List.mem_append_left _)
    · exact .inr (List.mem_append_right _ he)
  refine ⟨h.expired, ?_, ?_, ?_, ?_, ?_, ?_, ?_⟩
  · simp only [hruns]
    exact h.phase
  · simp only [htimers]
    refine hperm.trans ((h.timers.cons _).trans ?_)
    rw [← List.append_assoc]
    exact (List.perm_append_singleton _ _).symm
  · simp only [htimers]
    exact TimerList.insert_pairwise h.sorted hnew
  · simp only [htimers]
    have hall := ((hperm.append_right w.phase.entries).map Entry.second).nodup_iff
    refine hall.mpr ?_
    rw [List.cons_append, List.map_cons, List.nodup_cons]
    refine ⟨?_, h.nodup⟩
    intro hmem
    obtain ⟨f, hf, heq⟩ := List.mem_map.mp hmem
    exact hother f hf heq
  · intro e he
    simp only [htimers] at he
    simp only [hstatus]
    obtain rfl | he := hheld e he
    · exact hlive
    · exact (Function.update_of_ne (hother e he) ..).trans (h.live e he)
  · intro e he
    simp only [hobject]
    exact (Function.update_of_ne (hother e (List.mem_append_right _ he)) ..).trans (h.same e he)
  · intro e he hrepeat
    obtain ⟨hdeleted, hgone⟩ := h.settled e he hrepeat
    have hne : timer ≠ e.second := by
      rintro rfl
      rw [hfresh] at hdeleted
      cases hdeleted
    simp only [hstatus, htimers]
    refine ⟨(Function.update_of_ne hne.symm ..).trans hdeleted, ?_⟩
    intro f hf
    obtain rfl | hf := hheld f hf
    · exact hne
    · exact hgone f hf

theorem Content.of_expired (hcontent : start.Content) (h : Dispatching start done added w) {e : Entry}
    (he : e ∈ w.phase.entries) : (start.object e.second).when_ = e.first ∧
      (start.object e.second).canceled_ = false := by
  have hmem : e ∈ start.timers_ := by
    have hexpired : e ∈ start.expired := by
      rw [h.expired]
      exact List.mem_append_right _ he
    exact (List.mem_filter.mp hexpired).1
  exact ⟨hcontent.matched e hmem, hcontent.uncanceled e hmem⟩

/-- The dispatch runs the next of its entries. -/
theorem Dispatching.fire (h : Dispatching start done added w) (hcontent : start.Content)
    (hstep : w.step .fire = some w') : Dispatching start done added w' := by
  obtain ⟨hphase, hruns⟩ | ⟨e, rest, hphase, _⟩ := h.phase
  · cases hentries : w.phase.entries with
    | nil =>
      rw [hentries] at hphase
      simp [TimerWorld.step, hphase] at hstep
    | cons e rest =>
      rw [hentries] at hphase
      have he : e ∈ w.phase.entries := by simp [hentries]
      have hcanceled : (w.object e.second).canceled_ = false := by
        rw [h.same e he]
        exact (hcontent.of_expired h he).2
      have hran : (w.fireTimer start.time e).2 = true := by
        simp [TimerQueue.fireTimer, TimerQueue.access, TimerQueue.check, hcanceled]
      have hfired := TimerQueue.fireTimer_runs w.toTimerQueue start.time e
      rw [hcanceled] at hfired
      have hsame := TimerQueue.fireTimer_same w.toTimerQueue start.time e
      obtain ⟨hstatus, hsame⟩ := Prod.mk.inj hsame
      obtain ⟨hobject, htimers⟩ := Prod.mk.inj hsame
      simp only [TimerWorld.step, hphase, Option.some.injEq] at hstep
      subst hstep
      have hheld : (TimerPhase.calling start.time e rest (w.fireTimer start.time e).2).entries = w.phase.entries := by
        rw [hentries]
        rfl
      refine ⟨by simp only [hheld]; exact h.expired, .inr ⟨e, rest, by simp only [hran], ?_⟩,
        by simp only [htimers]; exact h.timers, by simp only [htimers]; exact h.sorted,
        by simp only [htimers, hheld]; exact h.nodup, by simp only [htimers, hheld, hstatus]; exact h.live,
        by simp only [hobject, hheld]; exact h.same, by simp only [htimers, hheld, hstatus]; exact h.settled⟩
      simp only [hfired, hruns, List.map_append, List.append_assoc]
      rfl
  · simp [TimerWorld.step, hphase] at hstep

/-- What is held beside the entry that is served belongs to other timers. -/
theorem Dispatching.others (h : Dispatching start done added w) {e : Entry} {rest : List Entry}
    (hentries : w.phase.entries = e :: rest) : ((w.timers_ ++ rest).map Entry.second).Nodup ∧
      ∀ f ∈ w.timers_ ++ rest, f ∈ w.timers_ ++ w.phase.entries ∧ f.second ≠ e.second := by
  have hperm : (w.timers_ ++ w.phase.entries).Perm (e :: (w.timers_ ++ rest)) := by
    rw [hentries]
    exact List.perm_middle
  have hnodup := (hperm.map Entry.second).nodup_iff.mp h.nodup
  rw [List.map_cons, List.nodup_cons] at hnodup
  refine ⟨hnodup.2, fun f hf => ⟨hperm.mem_iff.mpr (List.mem_cons_of_mem _ hf), fun heq => ?_⟩⟩
  exact hnodup.1 (List.mem_map.mpr ⟨f, hf, heq⟩)

/-- A timer that repeats is put back under its next time, whether that is past or not. -/
theorem Dispatching.putBack (h : Dispatching start done added w) {e : Entry} {rest : List Entry}
    (hentries : w.phase.entries = e :: rest) (hwhen : (start.object e.second).when_ = e.first)
    (hrepeat : (start.object e.second).repeat_ = true) (hphase : w'.phase = .expiring start.time rest)
    (htimers : w'.timers_ = (TimerList.insert w.timers_ ⟨(w.object e.second).restart.when_, e.second⟩).1)
    (hobject : w'.object = Function.update w.object e.second (w.object e.second).restart)
    (hstatus : w'.status = w.status)
    (hruns : w'.runs = start.runs ++ (done ++ [e]).map (fun e => (e.second, start.time))) :
    Dispatching start (done ++ [e]) added w' := by
  obtain ⟨hnodup, hothers⟩ := h.others hentries
  have he : e ∈ w.phase.entries := by simp [hentries]
  have hrest : w'.phase.entries = rest := by
    rw [hphase]
    rfl
  have hrestarted : start.restarted e = some ⟨(w.object e.second).restart.when_, e.second⟩ := by
    rw [restarted, if_pos hrepeat, h.same e he, Timer.restart, hwhen]
  have hnew : (⟨(w.object e.second).restart.when_, e.second⟩ : Entry) ∉ w.timers_ :=
    fun hmem => (hothers _ (List.mem_append_left _ hmem)).2 rfl
  have hperm := TimerList.insert_perm hnew
  rw [← htimers] at hperm
  have hheld : ∀ f ∈ w'.timers_ ++ w'.phase.entries, f.second = e.second ∨ f ∈ w.timers_ ++ rest := by
    intro f hf
    rw [hrest] at hf
    obtain hf | hf := List.mem_append.mp hf
    · obtain rfl | hf := List.mem_cons.mp (hperm.mem_iff.mp hf)
      · exact .inl rfl
      · exact .inr (List.mem_append_left _ hf)
    · exact .inr (List.mem_append_right _ hf)
  refine ⟨?_, .inl ⟨by rw [hrest]; exact hphase, hruns⟩, ?_, ?_, ?_, ?_, ?_, ?_⟩
  · rw [hrest, List.append_assoc, h.expired, hentries]
    rfl
  · rw [List.filterMap_append, List.filterMap_cons_some hrestarted, List.filterMap_nil]
    refine hperm.trans ((h.timers.cons _).trans ?_)
    simp only [List.append_assoc, List.singleton_append]
    rw [← List.append_assoc, ← List.append_assoc]
    exact List.perm_middle.symm
  · rw [htimers]
    exact TimerList.insert_pairwise h.sorted hnew
  · rw [hrest]
    have hall := ((hperm.append_right rest).map Entry.second).nodup_iff
    rw [hall, List.cons_append, List.map_cons, List.nodup_cons]
    refine ⟨?_, hnodup⟩
    intro hmem
    obtain ⟨f, hf, heq⟩ := List.mem_map.mp hmem
    exact (hothers f hf).2 heq
  · intro f hf
    rw [hstatus]
    obtain heq | hf := hheld f hf
    · rw [heq]
      exact h.live e (List.mem_append_right _ he)
    · exact h.live f (hothers f hf).1
  · intro f hf
    rw [hrest] at hf
    have hf' := hothers f (List.mem_append_right _ hf)
    rw [hobject, Function.update_of_ne hf'.2]
    exact h.same f (by rw [hentries]; exact List.mem_cons_of_mem _ hf)
  · intro d hd hdone
    obtain hd | hd := List.mem_append.mp hd
    · obtain ⟨hdeleted, hgone⟩ := h.settled d hd hdone
      rw [hstatus]
      refine ⟨hdeleted, fun f hf => ?_⟩
      obtain heq | hf := hheld f hf
      · rw [heq]
        exact hgone e (List.mem_append_right _ he)
      · exact hgone f (hothers f hf).1
    · rw [List.mem_singleton.mp hd, hrepeat] at hdone
      cases hdone

/-- Any other timer is deleted. -/
theorem Dispatching.drop (h : Dispatching start done added w) {e : Entry} {rest : List Entry}
    (hentries : w.phase.entries = e :: rest) (hrepeat : (start.object e.second).repeat_ = false)
    (hphase : w'.phase = .expiring start.time rest) (htimers : w'.timers_ = w.timers_)
    (hobject : w'.object = w.object) (hstatus : w'.status = Function.update w.status e.second .deleted)
    (hruns : w'.runs = start.runs ++ (done ++ [e]).map (fun e => (e.second, start.time))) :
    Dispatching start (done ++ [e]) added w' := by
  obtain ⟨hnodup, hothers⟩ := h.others hentries
  have he : e ∈ w.phase.entries := by simp [hentries]
  have hrest : w'.phase.entries = rest := by
    rw [hphase]
    rfl
  have hrestarted : start.restarted e = none := by simp [restarted, hrepeat]
  refine ⟨?_, .inl ⟨by rw [hrest]; exact hphase, hruns⟩, ?_, by rw [htimers]; exact h.sorted,
    by rw [htimers, hrest]; exact hnodup, ?_, ?_, ?_⟩
  · rw [hrest, List.append_assoc, h.expired, hentries]
    rfl
  · rw [htimers, List.filterMap_append, List.filterMap_cons_none hrestarted, List.filterMap_nil, List.append_nil]
    exact h.timers
  · intro f hf
    rw [htimers, hrest] at hf
    rw [hstatus, Function.update_of_ne (hothers f hf).2]
    exact h.live f (hothers f hf).1
  · intro f hf
    rw [hrest] at hf
    rw [hobject]
    exact h.same f (by rw [hentries]; exact List.mem_cons_of_mem _ hf)
  · intro d hd hdone
    rw [htimers, hrest, hstatus]
    obtain hd | hd := List.mem_append.mp hd
    · obtain ⟨hdeleted, hgone⟩ := h.settled d hd hdone
      have hne : d.second ≠ e.second := (hgone e (List.mem_append_right _ he)).symm
      rw [Function.update_of_ne hne]
      exact ⟨hdeleted, fun f hf => hgone f (hothers f hf).1⟩
    · rw [List.mem_singleton.mp hd, Function.update_self]
      exact ⟨rfl, fun f hf => (hothers f hf).2⟩

/-- The dispatch settles the timer it has run. -/
theorem Dispatching.settle (h : Dispatching start done added w) (hcontent : start.Content)
    (hstep : w.step .settle = some w') : ∃ e, Dispatching start (done ++ [e]) added w' := by
  simp only [TimerWorld.step] at hstep
  obtain ⟨hphase, _⟩ | ⟨e, rest, hphase, hruns⟩ := h.phase
  · rw [hphase] at hstep
    cases hstep
  · have hentries : w.phase.entries = e :: rest := by
      rw [hphase]
      rfl
    have he : e ∈ w.phase.entries := by simp [hentries]
    obtain ⟨hwhen, hcanceled⟩ := hcontent.of_expired h he
    rw [hphase] at hstep
    cases hstep
    have hkept : (w.settleTimer e).runs = start.runs ++ (done ++ [e]).map (fun e => (e.second, start.time)) := by
      rw [TimerQueue.settleTimer_runs, hruns]
    refine ⟨e, ?_⟩
    have hobject := h.same e he
    by_cases hrepeat : (start.object e.second).repeat_ = true
    · obtain ⟨htimers, hobject', hstatus⟩ := TimerQueue.settleTimer_repeats (q := w.toTimerQueue) (e := e)
        (by rw [hobject]; exact hcanceled) (by rw [hobject]; exact hrepeat)
      exact h.putBack hentries hwhen hrepeat rfl htimers hobject' hstatus hkept
    · have hrepeat : (start.object e.second).repeat_ = false := by simpa using hrepeat
      obtain ⟨htimers, hobject', hstatus⟩ := TimerQueue.settleTimer_deletes (q := w.toTimerQueue) (e := e)
        (.inr (by rw [hobject]; exact hrepeat))
      exact h.drop hentries hrepeat rfl htimers hobject' hstatus hkept

theorem Dispatching.inHandleRead (h : Dispatching start done added w) : w.phase.inHandleRead = true := by
  obtain ⟨hphase, _⟩ | ⟨e, rest, hphase, _⟩ := h.phase <;> rw [hphase] <;> rfl

/-- Everything but a cancellation in the loop thread and the end of `handleRead`. -/
theorem Dispatching.step (h : Dispatching start done added w) (hcontent : start.Content) {l : TimerLabel}
    (hend : l ≠ .endRead) (hcancel : ∀ timer, l ≠ .cancelTimer timer) (hstep : w.step l = some w') :
    ∃ done', Dispatching start done' (added ++ l.adds) w' := by
  have hinside := h.inHandleRead
  have hsame (hadds : l.adds = []) (hnext : Dispatching start done added w') :
      ∃ done', Dispatching start done' (added ++ l.adds) w' := by
    rw [hadds, List.append_nil]
    exact ⟨done, hnext⟩
  cases l with
  | fire => exact hsame rfl (h.fire hcontent hstep)
  | settle =>
    obtain ⟨e, hnext⟩ := h.settle hcontent hstep
    exact ⟨done ++ [e], by simpa [TimerLabel.adds] using hnext⟩
  | addTimer timer when_ interval => exact ⟨done, h.addTimer hstep⟩
  | pushOther =>
    cases hstep
    exact hsame rfl (h.frame rfl rfl rfl fun _ _ => ⟨rfl, rfl⟩)
  | tick | cancelTimerElsewhere =>
    simp only [TimerWorld.step, Option.ite_none_right_eq_some, Option.some.injEq] at hstep
    obtain ⟨_, rfl⟩ := hstep
    exact hsame rfl (h.frame rfl rfl rfl fun _ _ => ⟨rfl, rfl⟩)
  | addTimerElsewhere timer when_ interval =>
    simp only [TimerWorld.step, Option.ite_none_right_eq_some, Option.some.injEq] at hstep
    obtain ⟨⟨_, hfresh⟩, rfl⟩ := hstep
    refine hsame rfl (h.frame rfl rfl rfl ?_)
    intro other hused
    have hne : other ≠ timer := by
      rintro rfl
      exact hused hfresh
    exact ⟨Function.update_of_ne hne .., Function.update_of_ne hne ..⟩
  | poll | handleRead | swap | endTasks =>
    simp only [TimerWorld.step, Option.ite_none_right_eq_some] at hstep
    obtain ⟨hphase, _⟩ := hstep
    simp [hphase, TimerPhase.inHandleRead] at hinside
  | task =>
    simp only [TimerWorld.step] at hstep
    split at hstep
    · rename_i hphase _
      simp [hphase, TimerPhase.inHandleRead] at hinside
    · cases hstep
  | cancelTimer timer => exact (hcancel timer rfl).elim
  | endRead => exact (hend rfl).elim

theorem Dispatching.run (h : Dispatching start done added w) (hcontent : start.Content) {body : List TimerLabel}
    (hbody : ∀ l ∈ body, l ≠ .endRead ∧ ∀ timer, l ≠ .cancelTimer timer)
    (hrun : Run.exec TimerWorld.step w body = some w') :
    ∃ done', Dispatching start done' (added ++ body.flatMap TimerLabel.adds) w' := by
  induction body generalizing w done added with
  | nil =>
    cases hrun
    exact ⟨done, by simpa using h⟩
  | cons l body ih =>
    obtain ⟨t, hstep, hrun⟩ := Run.exec_cons_eq_some.mp hrun
    obtain ⟨hend, hcancel⟩ := hbody l (by simp)
    obtain ⟨done', hnext⟩ := h.step hcontent hend hcancel hstep
    obtain ⟨last, hlast⟩ := ih hnext (fun m hm => hbody m (by simp [hm])) hrun
    refine ⟨last, ?_⟩
    rw [List.flatMap_cons, ← List.append_assoc]
    exact hlast

end

/-- The end of `handleRead` only sets the descriptor. -/
theorem endRead_spec {w w' : TimerWorld} (hstep : w.step .endRead = some w') :
    w.phase.entries = [] ∧ (∃ now, w.phase = .expiring now []) ∧
      (w'.runs, w'.timers_, w'.status) = (w.runs, w.timers_, w.status) := by
  simp only [TimerWorld.step] at hstep
  split at hstep
  · rename_i now hphase
    cases hstep
    refine ⟨by rw [hphase]; rfl, ⟨now, hphase⟩, ?_⟩
    simp only [TimerQueue.rearm]
    split <;> rfl
  · cases hstep

/-- A dispatch whose callbacks do nothing reaches its end. -/
theorem expiring_completes {now : Timestamp} (rest : List Entry) {w : TimerWorld}
    (hphase : w.phase = .expiring now rest) :
    ∃ w', Run.exec step w ((rest.flatMap fun _ => [.fire, .settle]) ++ [.endRead]) = some w' := by
  induction rest generalizing w with
  | nil => exact ⟨_, by simp [Run.exec, TimerWorld.step, hphase]; rfl⟩
  | cons e rest ih =>
    have hfire : w.step .fire = some { w with toTimerQueue := (w.fireTimer now e).1,
                                              phase := .calling now e rest (w.fireTimer now e).2 } := by
      simp only [TimerWorld.step, hphase]
    obtain ⟨w', hrun⟩ := ih (w := { w with toTimerQueue := (w.fireTimer now e).1.settleTimer e,
                                           phase := .expiring now rest }) rfl
    refine ⟨w', ?_⟩
    rw [List.flatMap_cons, List.cons_append, List.cons_append, List.cons_append]
    exact Run.exec_cons_eq_some.mpr ⟨_, hfire, Run.exec_cons_eq_some.mpr ⟨_, rfl, hrun⟩⟩

theorem dispatch_completes {w : TimerWorld} (hphase : w.phase = .handling) :
    ∃ body w', (∀ l ∈ body, l ≠ .endRead ∧ ∀ timer, l ≠ .cancelTimer timer) ∧
      Run.exec step w (.handleRead :: (body ++ [.endRead])) = some w' := by
  obtain ⟨v, hread⟩ : ∃ v, w.step .handleRead = some v := by simp [TimerWorld.step, hphase]
  cases step_turns hread with
  | read expired hl hdue hold hexpiring =>
    obtain ⟨w', hrun⟩ := expiring_completes expired hexpiring
    refine ⟨expired.flatMap fun _ => [.fire, .settle], w', ?_, Run.exec_cons_eq_some.mpr ⟨v, hread, hrun⟩⟩
    intro l hl
    obtain ⟨_, _, hl⟩ := List.mem_flatMap.mp hl
    simp only [List.mem_cons, List.not_mem_nil, or_false] at hl
    obtain rfl | rfl := hl <;> simp
  | stay hl => exact (hl.1 rfl).elim
  | outside hl => exact (hl.1 rfl).elim
  | fire now e rest hl => cases hl
  | settle now e rest ran hl => cases hl

/-- What one dispatch does. Whatever the callbacks add, and other threads do meanwhile, the expired timers are run, each
once and in the order of the set; the set afterwards holds the entries left, each fired timer that repeats under the time
it is put back for, and what the callbacks added; and a fired timer that does not repeat is gone. -/
theorem dispatch_ends {w w' : TimerWorld} {body : List TimerLabel} (hcontent : w.Content)
    (hbody : ∀ l ∈ body, l ≠ .endRead ∧ ∀ timer, l ≠ .cancelTimer timer)
    (hrun : Run.exec step w (.handleRead :: (body ++ [.endRead])) = some w') :
    w'.runs = w.runs ++ w.expired.map (fun e => (e.second, w.time)) ∧
      w'.timers_.Pairwise Entry.lt ∧
      w'.timers_.Perm (w.left ++ w.expired.filterMap w.restarted ++ body.flatMap TimerLabel.adds) ∧
      ∀ e ∈ w.expired, (w.object e.second).repeat_ = false →
        w'.status e.second = .deleted ∧ ∀ f ∈ w'.timers_, f.second ≠ e.second := by
  obtain ⟨v, hread, hrun⟩ := Run.exec_cons_eq_some.mp hrun
  obtain ⟨u, hu, hrun⟩ := Run.exec_append_eq_some.mp hrun
  obtain ⟨done, hdone⟩ := (hcontent.begin hread).run hcontent hbody hu
  rw [List.nil_append] at hdone
  obtain ⟨_, hend, hlast⟩ := Run.exec_cons_eq_some.mp hrun
  cases hlast
  obtain ⟨hempty, ⟨now, hphase⟩, hsame⟩ := endRead_spec hend
  obtain ⟨hruns, hsame⟩ := Prod.mk.inj hsame
  obtain ⟨htimers, hstatus⟩ := Prod.mk.inj hsame
  have hexpired : w.expired = done := by rw [hdone.expired, hempty, List.append_nil]
  rw [hruns, htimers, hstatus, hexpired]
  have hfired : u.runs = w.runs ++ done.map (fun e => (e.second, w.time)) := by
    obtain ⟨_, hfired⟩ | ⟨e, rest, hcalling, _⟩ := hdone.phase
    · exact hfired
    · rw [hphase] at hcalling
      cases hcalling
  refine ⟨hfired, hdone.sorted, hdone.timers, ?_⟩
  intro e he hrepeat
  obtain ⟨hdeleted, hgone⟩ := hdone.settled e he hrepeat
  exact ⟨hdeleted, fun f hf => hgone f (List.mem_append_left _ hf)⟩

end TimerWorld

/-- The time and the pointer of an entry, the time as a number. -/
def Entry.key (e : Entry) : Int × Nat := (e.first.toInt, e.second)

namespace TimerWorld

/-- The next time of a fired timer that repeats, one interval after the last. -/
def again (w : TimerWorld) (e : Entry) : Option (Int × Nat) :=
  if (w.object e.second).repeat_ then
    some (e.first.toInt + (w.object e.second).interval_.toInt, e.second)
  else none

/-- From `w` to `w'` a dispatch has fired exactly the due timers, while the entries `added` came in: those timers are
run, each once and in the order of the set; the set afterwards holds the later entries, each fired timer that repeats
under its next time, and the added ones; and a fired timer that does not repeat is gone. -/
structure FiresExactlyDue (w w' : TimerWorld) (added : List Entry) : Prop where
  runs : w'.runs = w.runs ++ w.due.map fun e => (e.second, w.time)
  ordered : w.due.Pairwise Entry.lt
  once : (w.due.map Entry.second).Nodup
  sorted : w'.timers_.Pairwise Entry.lt
  timers : (w'.timers_.map Entry.key).Perm ((w.later ++ added).map Entry.key ++ w.due.filterMap w.again)
  gone : ∀ e ∈ w.due, (w.object e.second).repeat_ = false →
    w'.status e.second = .deleted ∧ ∀ f ∈ w'.timers_, f.second ≠ e.second

/-- The sentinel after the present, and the next time of each due timer that repeats, are in the range of their type. -/
def DueInRange (w : TimerWorld) : Prop :=
  (w.time ≠ Int64.maxValue ∨ w.due = []) ∧ ∀ e ∈ w.due, (w.object e.second).repeat_ = true →
    -2 ^ 63 ≤ e.first.toInt + (w.object e.second).interval_.toInt ∧
      e.first.toInt + (w.object e.second).interval_.toInt < 2 ^ 63

instance decidableDueInRange (w : TimerWorld) : Decidable w.DueInRange :=
  inferInstanceAs (Decidable ((_ ∨ _) ∧ ∀ e ∈ w.due, _ → _))

/-- Where the sentinel is in range, the split at it is the split at the present. -/
theorem expired_eq_due {w : TimerWorld} (h : w.time ≠ Int64.maxValue) : w.expired = w.due ∧ w.left = w.later := by
  constructor
  · exact List.filter_congr fun e _ => decide_eq_decide.mpr (Int64.lt_add_one_iff h)
  · refine List.filter_congr fun e _ => decide_eq_decide.mpr ?_
    rw [← not_lt, Int64.lt_add_one_iff h, not_le]

/-- At the end of time nothing lies before the sentinel. -/
theorem expired_eq_nil {w : TimerWorld} (h : w.time = Int64.maxValue) : w.expired = [] := by
  refine List.filter_eq_nil_iff.mpr fun e _ => ?_
  rw [h, decide_eq_true_eq]
  exact Int64.not_lt_maxValue_add_one e.first

/-- A timer is put back under its next time exactly if that is in range. -/
theorem restarted_key_iff (w : TimerWorld) (e : Entry) :
    (w.restarted e).map Entry.key = w.again e ↔ ((w.object e.second).repeat_ = true →
      -2 ^ 63 ≤ e.first.toInt + (w.object e.second).interval_.toInt ∧
        e.first.toInt + (w.object e.second).interval_.toInt < 2 ^ 63) := by
  rw [← Int64.toInt_add_eq_iff]
  cases hrepeat : (w.object e.second).repeat_ <;> simp [restarted, again, hrepeat, Entry.key]

/-- The timers are put back under their next times, in whatever order, exactly if each is. -/
theorem filterMap_restarted_perm_iff {w : TimerWorld} {entries : List Entry} (h : (entries.map Entry.second).Nodup) :
    ((entries.filterMap w.restarted).map Entry.key).Perm (entries.filterMap w.again) ↔
      ∀ e ∈ entries, (w.restarted e).map Entry.key = w.again e := by
  rw [List.map_filterMap]
  constructor
  · intro hperm e he
    cases hagain : w.again e with
    | none =>
      have hrepeat : (w.object e.second).repeat_ = false := by simpa [again] using hagain
      simp [restarted, hrepeat]
    | some next =>
      obtain ⟨f, hf, hnext⟩ := List.mem_filterMap.mp (hperm.mem_iff.mpr (List.mem_filterMap.mpr ⟨e, he, hagain⟩))
      -- the pointer tells whose next time it is
      have hsecond : f.second = e.second := by
        have hleft : next.2 = f.second := by
          cases hrepeat : (w.object f.second).repeat_ <;> simp [restarted, hrepeat, Entry.key] at hnext
          rw [← hnext]
        have hright : next.2 = e.second := by
          cases hrepeat : (w.object e.second).repeat_ <;> simp [again, hrepeat] at hagain
          rw [← hagain]
        exact hleft.symm.trans hright
      rw [List.inj_on_of_nodup_map h hf he hsecond] at hnext
      exact hnext
  · intro heach
    rw [List.filterMap_congr heach]

/-- One dispatch fires exactly the due timers, whatever the callbacks add and other threads do meanwhile, exactly if
neither the sentinel nor a next time of a due timer wraps around. -/
theorem dispatch_fires_exactly_due_iff {w w' : TimerWorld} {body : List TimerLabel} (hcontent : w.Content)
    (hbody : ∀ l ∈ body, l ≠ .endRead ∧ ∀ timer, l ≠ .cancelTimer timer)
    (hrun : Run.exec step w (.handleRead :: (body ++ [.endRead])) = some w') :
    FiresExactlyDue w w' (body.flatMap TimerLabel.adds) ↔ w.DueInRange := by
  obtain ⟨hruns, hsorted, htimers, hgone⟩ := dispatch_ends hcontent hbody hrun
  have hordered : w.due.Pairwise Entry.lt := hcontent.sorted.filter _
  have honce : (w.due.map Entry.second).Nodup := hcontent.nodup.sublist (List.filter_sublist.map Entry.second)
  by_cases hlast : w.time = Int64.maxValue
  · -- nothing is fired, and every entry of the set is due
    have hnone := expired_eq_nil hlast
    constructor
    · intro h
      have hdue : w.due = [] := by
        have hsame := hruns.symm.trans h.runs
        simpa [hnone] using hsame
      exact ⟨.inr hdue, by simp [hdue]⟩
    · rintro ⟨hdue, _⟩
      have hdue : w.due = [] := hdue.resolve_left (not_not.mpr hlast)
      have hempty : w.timers_ = [] := by
        by_contra hne
        obtain ⟨e, he⟩ := List.exists_mem_of_ne_nil _ hne
        exact List.filter_eq_nil_iff.mp hdue e he (decide_eq_true (hlast ▸ e.first.le_maxValue))
      have hleft : w.left = [] := by simp [left, hempty]
      refine ⟨by rw [hruns, hnone, hdue], hordered, honce, hsorted, ?_, by simp [hdue]⟩
      rw [hnone, hleft] at htimers
      simpa [later, hempty, hdue] using htimers.map Entry.key
  · obtain ⟨hexpired, hleft⟩ := expired_eq_due hlast
    rw [hexpired, hleft] at htimers
    rw [hexpired] at hruns hgone
    have hmoved : (w'.timers_.map Entry.key).Perm
        ((w.later ++ body.flatMap TimerLabel.adds).map Entry.key ++ (w.due.filterMap w.restarted).map Entry.key) := by
      refine (htimers.map Entry.key).trans ?_
      rw [← List.map_append]
      refine List.Perm.map _ ?_
      rw [List.append_assoc, List.append_assoc]
      exact List.perm_append_comm.append_left _
    have hnext : (∀ e ∈ w.due, (w.restarted e).map Entry.key = w.again e) ↔ w.DueInRange := by
      simp only [restarted_key_iff]
      exact ⟨fun h => ⟨.inl hlast, h⟩, fun h => h.2⟩
    rw [← hnext, ← filterMap_restarted_perm_iff honce]
    constructor
    · intro h
      exact (List.perm_append_left_iff _).mp (hmoved.symm.trans h.timers)
    · intro hperm
      exact ⟨hruns, hordered, honce, hsorted, hmoved.trans (hperm.append_left _), hgone⟩

/-- Two timers due at once, one of them repeating into the past; a callback adds a timer that is due as well. -/
theorem dispatch_fires_exactly_due_two : ∃ w w' : TimerWorld,
    Run.exec step (init 0) [.addTimer 2 5 3, .addTimer 1 5 0, .addTimer 3 100 0, .tick 20] = some w ∧
      Run.exec step w (.handleRead :: ([.fire, .addTimer 4 1 0, .settle, .fire, .settle] ++ [.endRead])) = some w' ∧
      w'.runs = [(1, 20), (2, 20)] ∧ (w'.timers_.map Entry.key).Perm [(100, 3), (1, 4), (8, 2)] ∧
      w'.status 1 = .deleted := by
  obtain ⟨w', hrun⟩ : ∃ w', Run.exec step (init 0) ([.addTimer 2 5 3, .addTimer 1 5 0, .addTimer 3 100 0, .tick 20] ++
      .handleRead :: ([.fire, .addTimer 4 1 0, .settle, .fire, .settle] ++ [.endRead])) = some w' ∧ True := by
    apply Run.Reaches.exists
    decide +kernel
  obtain ⟨w, hw, hdispatch⟩ := Run.exec_append_eq_some.mp hrun.1
  obtain ⟨v, hv, hfacts⟩ : ∃ w, Run.exec step (init 0)
      [.addTimer 2 5 3, .addTimer 1 5 0, .addTimer 3 100 0, .tick 20] = some w ∧
        (w.timers_.Pairwise Entry.lt ∧ (∀ e ∈ w.timers_, w.status e.second = .live) ∧
          (∀ e ∈ w.timers_, (w.object e.second).when_ = e.first) ∧
          ∀ e ∈ w.timers_, (w.object e.second).canceled_ = false) ∧
        w.DueInRange ∧ w.runs = [] ∧ w.time = 20 ∧ w.due = [⟨5, 1⟩, ⟨5, 2⟩] ∧ w.later = [⟨100, 3⟩] ∧
        w.due.filterMap w.again = [(8, 2)] ∧ (w.object 1).repeat_ = false := by
    apply Run.Reaches.exists
    decide +kernel
  rw [hw] at hv
  cases hv
  obtain ⟨⟨hsorted, hlive, hmatched, huncanceled⟩, hrange, hruns, htime, hdue, hlater, hagain, hrepeat⟩ := hfacts
  have hfires := (dispatch_fires_exactly_due_iff ⟨hsorted, hlive, hmatched, huncanceled⟩ (by simp) hdispatch).mpr hrange
  have hfired := hfires.runs
  have hperm := hfires.timers
  rw [hruns, hdue, htime] at hfired
  rw [hlater, hagain] at hperm
  exact ⟨w, w', hw, hdispatch, hfired, hperm, (hfires.gone ⟨5, 1⟩ (by simp [hdue]) hrepeat).1⟩

/-- A timer that repeats after 9 · 10 ^ 18 nanoseconds is put back into the distant past, and a dispatch at the end of
time fires nothing. -/
theorem dispatch_past_the_range :
    (∃ w w' : TimerWorld, Run.exec step (init 1000000000000000000)
        [.addTimer 1 1000000000000000000 9000000000000000000] = some w ∧ w.Content ∧
      Run.exec step w (.handleRead :: ([.fire, .settle] ++ [.endRead])) = some w' ∧
      w'.timers_ = [⟨-8446744073709551616, 1⟩] ∧ ¬FiresExactlyDue w w' []) ∧
    ∃ w w' : TimerWorld, Run.exec step (init Int64.maxValue) [.addTimer 1 5 0] = some w ∧ w.Content ∧
      Run.exec step w (.handleRead :: ([] ++ [.endRead])) = some w' ∧ w'.runs = [] ∧ ¬FiresExactlyDue w w' [] := by
  constructor
  · obtain ⟨w, hw, ⟨hsorted, hlive, hmatched, huncanceled⟩, hnext, hdispatch⟩ := Run.Reaches.exists
      (show Run.Reaches step (init 1000000000000000000) [.addTimer 1 1000000000000000000 9000000000000000000]
        (fun w => (w.timers_.Pairwise Entry.lt ∧ (∀ e ∈ w.timers_, w.status e.second = .live) ∧
          (∀ e ∈ w.timers_, (w.object e.second).when_ = e.first) ∧
          ∀ e ∈ w.timers_, (w.object e.second).canceled_ = false) ∧
          w.later.map Entry.key ++ w.due.filterMap w.again = [(10000000000000000000, 1)] ∧
          Run.Reaches step w (.handleRead :: ([.fire, .settle] ++ [.endRead]))
            (fun w' => w'.timers_ = [⟨-8446744073709551616, 1⟩])) by decide +kernel)
    obtain ⟨w', hrun, htimers⟩ := hdispatch.exists
    refine ⟨w, w', hw, ⟨hsorted, hlive, hmatched, huncanceled⟩, hrun, htimers, fun h => ?_⟩
    have hperm := h.timers
    rw [htimers, List.append_nil, hnext] at hperm
    exact absurd (List.singleton_perm_singleton.mp hperm) (by decide +kernel)
  · obtain ⟨w, hw, ⟨hsorted, hlive, hmatched, huncanceled⟩, ⟨hnone, hdue⟩, hdispatch⟩ := Run.Reaches.exists
      (show Run.Reaches step (init Int64.maxValue) [.addTimer 1 5 0]
        (fun w => (w.timers_.Pairwise Entry.lt ∧ (∀ e ∈ w.timers_, w.status e.second = .live) ∧
          (∀ e ∈ w.timers_, (w.object e.second).when_ = e.first) ∧
          ∀ e ∈ w.timers_, (w.object e.second).canceled_ = false) ∧ (w.runs = [] ∧ w.due = [⟨5, 1⟩]) ∧
          Run.Reaches step w (.handleRead :: ([] ++ [.endRead])) (fun w' => w'.runs = [])) by decide +kernel)
    obtain ⟨w', hrun, hruns⟩ := hdispatch.exists
    refine ⟨w, w', hw, ⟨hsorted, hlive, hmatched, huncanceled⟩, hrun, hruns, fun h => ?_⟩
    have hfired := h.runs
    rw [hruns, hnone, hdue] at hfired
    cases hfired

end TimerWorld

end mudong.ev
