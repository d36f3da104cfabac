import Mathlib.Data.List.TakeWhile
import Mudong.TimerQueue.Cancellation
import Mudong.TimerQueue.Undisturbed

namespace mudong.ev

/-- The entries that the dispatch has not called yet. -/
def TimerPhase.ahead : TimerPhase → List Entry
  | .expiring _ rest => rest
  | .calling _ _ rest _ => rest
  | _ => []

/-- The callback of the timer has been called and the dispatch has not settled the timer yet. -/
def TimerPhase.serves (timer : Nat) : TimerPhase → Bool
  | .calling _ e _ _ => e.second = timer
  | _ => false

/-- The entries of a dispatch are due. -/
def TimerPhase.Due : TimerPhase → Prop
  | .expiring now rest => ∀ e ∈ rest, e.first ≤ now
  | .calling now e rest _ => ∀ f ∈ e :: rest, f.first ≤ now
  | _ => True

theorem TimerPhase.ahead_sublist (phase : TimerPhase) : phase.ahead.Sublist phase.entries := by
  cases phase with
  | calling now e rest ran => exact List.sublist_cons_self e rest
  | _ => exact List.Sublist.refl _

namespace TimerWorld

/-- Everything that a step can do to the phase of the loop. -/
inductive Turns (w w' : TimerWorld) (l : TimerLabel) : Prop where
  | stay (hl : l ≠ .handleRead ∧ l ≠ .fire ∧ l ≠ .settle) (hphase : w'.phase = w.phase)
  | outside (hl : l ≠ .handleRead ∧ l ≠ .fire ∧ l ≠ .settle) (hentries : w.phase.entries = [])
    (hphase : w'.phase = .polling ∨ w'.phase = .handling ∨ w'.phase = .running)
    (hidle : w.phase = .running → w.tasks = [])
  | read (expired : List Entry) (hl : l = .handleRead) (hdue : ∀ e ∈ expired, e.first ≤ w.time)
    (hold : w.phase = .handling) (hphase : w'.phase = .expiring w.time expired)
  | fire (now : Timestamp) (e : Entry) (rest : List Entry) (hl : l = .fire) (hold : w.phase = .expiring now (e :: rest))
    (hphase : w'.phase = .calling now e rest (w.fireTimer now e).2)
  | settle (now : Timestamp) (e : Entry) (rest : List Entry) (ran : Bool) (hl : l = .settle)
    (hold : w.phase = .calling now e rest ran) (hphase : w'.phase = .expiring now rest)

/-- What `getExpired` takes out is due. -/
theorem getExpired_due (q : TimerQueue) (now : Timestamp) : ∀ e ∈ (q.getExpired now).1, e.first ≤ now := by
  intro e he
  have hlt : e.lt ⟨now + 1, nullptr⟩ :=
    of_decide_eq_true (List.mem_takeWhile_imp (p := fun f : Entry => decide (f.lt _)) he)
  exact Int64.le_of_lt_add_one (Entry.lt_end_iff.mp hlt)

theorem step_turns {w w' : TimerWorld} {l : TimerLabel} (hstep : w.step l = some w') : w.Turns w' l := by
  cases l with
  | pushOther =>
    cases hstep
    exact .stay (by simp) rfl
  | poll =>
    simp only [TimerWorld.step, Option.ite_none_right_eq_some, Option.some.injEq] at hstep
    obtain ⟨hphase, rfl⟩ := hstep
    exact .outside (by simp) (by rw [hphase]; rfl) (by simp) (by simp [hphase])
  | tick | addTimer | cancelTimer | addTimerElsewhere | cancelTimerElsewhere =>
    simp only [TimerWorld.step, Option.ite_none_right_eq_some, Option.some.injEq] at hstep
    obtain ⟨_, rfl⟩ := hstep
    exact .stay (by simp) rfl
  | handleRead =>
    simp only [TimerWorld.step, Option.ite_none_right_eq_some, Option.some.injEq] at hstep
    obtain ⟨hphase, rfl⟩ := hstep
    exact .read _ rfl (getExpired_due _ _) hphase rfl
  | fire =>
    simp only [TimerWorld.step] at hstep
    split at hstep
    · rename_i now e rest hphase
      cases hstep
      exact .fire now e rest rfl hphase rfl
    · cases hstep
  | settle =>
    simp only [TimerWorld.step] at hstep
    split at hstep
    · rename_i now e rest ran hphase
      cases hstep
      exact .settle now e rest ran rfl hphase rfl
    · cases hstep
  | endRead =>
    simp only [TimerWorld.step] at hstep
    split at hstep
    · rename_i now hphase
      cases hstep
      exact .outside (by simp) (by rw [hphase]; rfl) (by simp) (by simp [hphase])
    · cases hstep
  | swap =>
    simp only [TimerWorld.step, Option.ite_none_right_eq_some, Option.some.injEq] at hstep
    obtain ⟨hphase, rfl⟩ := hstep
    exact .outside (by simp) (by rw [hphase]; rfl) (by simp) (by simp [hphase])
  | task =>
    simp only [TimerWorld.step] at hstep
    split at hstep
    · cases hstep
      exact .stay (by simp) rfl
    · cases hstep
  | endTasks =>
    simp only [TimerWorld.step, Option.ite_none_right_eq_some, Option.some.injEq] at hstep
    obtain ⟨⟨hphase, htasks⟩, rfl⟩ := hstep
    exact .outside (by simp) (by rw [hphase]; rfl) (by simp) (fun _ => htasks)

/-- The times of the dispatches that have run the timer. -/
def callsOf (w : TimerWorld) (timer : Nat) : List Timestamp := (w.runs.filter (·.1 = timer)).map Prod.snd

theorem step_callsOf {w w' : TimerWorld} {l : TimerLabel} (hstep : w.step l = some w') (timer : Nat) :
    w'.callsOf timer = w.callsOf timer ++ ((w.fires l).filter (·.1 = timer)).map Prod.snd := by
  rw [callsOf, step_runs hstep, List.filter_append, List.map_append]
  rfl

/-- A timer that is not called and not settled keeps its place in the dispatch. -/
theorem Turns.serves {w w' : TimerWorld} {l : TimerLabel} {timer : Nat} (hturns : w.Turns w' l)
    (hcalled : ∀ r ∈ w.fires l, r.1 ≠ timer) (hsettles : ¬w.Settles timer l)
    (hcanceled : (w.object timer).canceled_ = false) : w'.phase.serves timer = w.phase.serves timer := by
  cases hturns with
  | stay hl hphase => rw [hphase]
  | outside hl hentries hphase hidle =>
    have hold : w.phase.serves timer = false := by
      cases hw : w.phase with
      | calling => simp [hw, TimerPhase.entries] at hentries
      | _ => rfl
    obtain hphase | hphase | hphase := hphase <;> rw [hphase, hold] <;> rfl
  | read expired hl hdue hold hphase =>
    rw [hphase, hold]
    rfl
  | fire now e rest hl hold hphase =>
    have hne : e.second ≠ timer := by
      rintro rfl
      refine hcalled (e.second, now) ?_ rfl
      simp [fires, hl, hold, hcanceled]
    rw [hphase, hold]
    exact decide_eq_false hne
  | settle now e rest ran hl hold hphase =>
    subst hl
    have hne : e.second ≠ timer := by simpa [Settles, hold, TimerPhase.entries] using hsettles
    rw [hphase, hold]
    exact (decide_eq_false hne).symm

theorem Turns.due {w w' : TimerWorld} {l : TimerLabel} (hturns : w.Turns w' l) (hdue : w.phase.Due) :
    w'.phase.Due := by
  cases hturns with
  | stay hl hphase =>
    rw [hphase]
    exact hdue
  | outside hl hentries hphase hidle =>
    obtain hphase | hphase | hphase := hphase <;> rw [hphase] <;> trivial
  | read expired hl hexpired hold hphase =>
    rw [hphase]
    exact hexpired
  | fire now e rest hl hold hphase =>
    rw [hphase]
    rw [hold] at hdue
    exact hdue
  | settle now e rest ran hl hold hphase =>
    rw [hphase]
    rw [hold] at hdue
    exact fun f hf => hdue f (List.mem_cons_of_mem _ hf)

/-- Between two dispatches, every call of a timer uses up one of its entries. -/
theorem step_ahead {w w' : TimerWorld} {l : TimerLabel} (hread : l ≠ .handleRead) (hstep : w.step l = some w')
    (timer : Nat) :
    (w'.callsOf timer).length + (w'.phase.ahead.filter (·.second = timer)).length ≤
      (w.callsOf timer).length + (w.phase.ahead.filter (·.second = timer)).length := by
  rw [step_callsOf hstep]
  cases step_turns hstep with
  | stay hl hphase => simp [fires_of_ne hl.2.1, hphase]
  | outside hl hentries hphase hidle =>
    obtain hphase | hphase | hphase := hphase <;> simp [fires_of_ne hl.2.1, hphase, TimerPhase.ahead]
  | read expired hl => exact (hread hl).elim
  | fire now e rest hl hold hphase =>
    subst hl
    simp only [fires, hold, hphase, TimerPhase.ahead, List.filter_cons, List.length_append, List.length_map]
    by_cases heq : e.second = timer
    · cases hcanceled : (w.object e.second).canceled_
      · simp [heq]
        omega
      · simp [heq]
    · cases hcanceled : (w.object e.second).canceled_ <;> simp [heq]
  | settle now e rest ran hl hold hphase =>
    subst hl
    simp [fires, hold, hphase, TimerPhase.ahead]

/-- The entries of the timer whose insertion is queued. -/
def arrivingOf (w : TimerWorld) (timer : Nat) : List Entry :=
  (arriving (w.tasks ++ w.pendingTasks_)).filter (·.second = timer)

/-- A queue that is not running tasks has swapped none out. -/
def Idle (w : TimerWorld) : Prop := w.phase ≠ .running → w.tasks = []

theorem Idle.step {w w' : TimerWorld} {l : TimerLabel} (hidle : w.Idle) (hstep : w.step l = some w') : w'.Idle := by
  intro hphase'
  cases step_queues hstep with
  | same hl htasks hpending =>
    rw [htasks]
    by_cases hphase : w.phase = .running
    · cases step_turns hstep with
      | stay hl hsame => exact (hphase' (hsame.trans hphase)).elim
      | outside hl hentries hnew hempty => exact hempty hphase
      | read expired hl hdue hold => simp [hold] at hphase
      | fire now e rest hl hold => simp [hold] at hphase
      | settle now e rest ran hl hold => simp [hold] at hphase
    · exact hidle hphase
  | push task hl hlabel htasks hpending hphase =>
    rw [htasks]
    exact hidle (hphase ▸ hphase')
  | swap hl hphase hrunning => exact (hphase' hrunning).elim
  | take task hl hphase hrunning => exact (hphase' hrunning).elim

/-- The queued insertions of a timer, after a step that neither adds nor inserts it. -/
theorem step_arrivingOf {w w' : TimerWorld} {l : TimerLabel} {timer : Nat} (hidle : w.Idle)
    (htouches : w.touches l ≠ some timer) (hstep : w.step l = some w') :
    w'.arrivingOf timer = w.arrivingOf timer := by
  unfold arrivingOf
  cases step_queues hstep with
  | same hl htasks hpending => rw [htasks, hpending]
  | push task hl hlabel htasks hpending hphase =>
    have hnone : (arriving [task]).filter (·.second = timer) = [] := by
      cases l with
      | addTimerElsewhere other when_ interval =>
        cases hlabel
        have hne : other ≠ timer := by simpa [touches, TimerLabel.timer] using htouches
        simp [arriving, hne]
      | cancelTimerElsewhere | pushOther =>
        cases hlabel
        rfl
      | _ => cases hlabel
    rw [htasks, hpending, ← List.append_assoc, arriving_append, List.filter_append, hnone, List.append_nil]
  | swap hl hphase hphase' htasks hpending =>
    rw [htasks, hpending, hidle hphase, List.append_nil, List.nil_append]
  | take task hl hphase hphase' htasks hpending hqueue =>
    subst hl
    have hne : task.timer ≠ some timer := by simpa [touches, htasks] using htouches
    rw [htasks, hpending]
    cases task with
    | addTimer when_ other =>
      have hne : other ≠ timer := by simpa [TimerTask.timer] using hne
      simp [arriving, hne]
    | cancelTimer | other => simp [arriving]

/-- Where a step puts the timer back, it does so under a time in the range of its type. -/
def RestartsInRange (timer : Nat) (w : TimerWorld) (l : TimerLabel) : Prop :=
  w.Settles timer l → (w.object timer).when_.toInt + (w.object timer).interval_.toInt < 2 ^ 63

instance decidableRestartsInRange (timer : Nat) (w : TimerWorld) (l : TimerLabel) :
    Decidable (RestartsInRange timer w l) :=
  inferInstanceAs (Decidable (_ → _))

/-- A timer created for `first` that repeats every `interval`: its time is that of its next call, and its entry is
in the set, in the hands of the dispatch, or still on its way. -/
structure OnSchedule (first : Timestamp) (interval : Nanoseconds) (timer : Nat) (w : TimerWorld) : Prop where
  live : w.status timer = .live
  repeats : (w.object timer).repeat_ = true ∧ (w.object timer).canceled_ = false
  every : (w.object timer).interval_ = interval
  placed : w.entriesOf timer = [⟨(w.object timer).when_, timer⟩] ∧ w.arrivingOf timer = [] ∨
    w.entriesOf timer = [] ∧ w.arrivingOf timer = [⟨(w.object timer).when_, timer⟩] ∧ w.callsOf timer = []
  next : (w.object timer).when_.toInt + (if w.phase.serves timer then interval.toInt else 0) =
    first.toInt + (w.callsOf timer).length * interval.toInt
  punctual : ∀ k : Nat, ∀ now ∈ (w.callsOf timer)[k]?, first.toInt + k * interval.toInt ≤ now.toInt

/-- The facts that hold in every state of every run. -/
structure Reachable (w : TimerWorld) : Prop where
  known : w.Known
  idle : w.Idle
  due : w.phase.Due
  unrun : ∀ timer, w.status timer = .unused → w.callsOf timer = []

theorem fires_mem {w : TimerWorld} {l : TimerLabel} : ∀ r ∈ w.fires l, ∃ e ∈ w.phase.entries, e.second = r.1 := by
  intro r hr
  unfold fires at hr
  split at hr
  · split at hr
    · rename_i now e rest hphase
      split at hr
      · cases hr
      · rw [List.mem_singleton.mp hr]
        exact ⟨e, by simp [hphase, TimerPhase.entries], rfl⟩
    · cases hr
  · cases hr

theorem Reachable.step {w w' : TimerWorld} {l : TimerLabel} (hinv : w.Reachable) (hstep : w.step l = some w') :
    w'.Reachable := by
  refine ⟨hinv.known.step hstep, hinv.idle.step hstep, (step_turns hstep).due hinv.due, ?_⟩
  intro timer hunused
  have hunused' : w.status timer = .unused := by
    by_contra hused
    exact step_remembers hstep timer hused hunused
  have hnone : (w.fires l).filter (·.1 = timer) = [] := by
    rw [List.filter_eq_nil_iff]
    intro r hr heq
    obtain ⟨e, he, hsecond⟩ := fires_mem r hr
    have hmem : e ∈ w.entriesOf timer := by
      refine List.mem_filter.mpr ⟨List.mem_append_right _ he, ?_⟩
      rw [hsecond]
      exact heq
    rw [(hinv.known timer hunused').1] at hmem
    cases hmem
  rw [step_callsOf hstep, hinv.unrun timer hunused', hnone]
  rfl

theorem Reachable.init (time : Timestamp) : (init time).Reachable :=
  ⟨fun _ _ => ⟨rfl, by simp [Unnamed, TimerWorld.init, EventLoop.init]⟩, fun _ => rfl, trivial, fun _ _ => rfl⟩

/-- A timer that no queued task names is not on its way. -/
theorem Unnamed.arrivingOf {w : TimerWorld} {timer : Nat} (hunnamed : w.Unnamed timer) : w.arrivingOf timer = [] := by
  rw [TimerWorld.arrivingOf, List.filter_eq_nil_iff]
  intro e he heq
  obtain ⟨task, htask, hentry⟩ := List.mem_filterMap.mp he
  cases task with
  | addTimer when_ other =>
    cases hentry
    exact hunnamed _ htask (congrArg some (of_decide_eq_true heq))
  | cancelTimer | other => cases hentry

/-- The dispatch serves a timer whose entry it holds. -/
theorem serves_of_entries {w : TimerWorld} {timer : Nat} (hentries : w.entriesOf timer = []) :
    w.phase.serves timer = false := by
  cases hphase : w.phase with
  | calling now e rest ran =>
    rw [entriesOf, hphase, TimerPhase.entries, List.filter_append, List.append_eq_nil_iff,
      List.filter_eq_nil_iff (l := e :: rest)] at hentries
    exact Bool.eq_false_iff.mpr (hentries.2 e (by simp))
  | _ => rfl

section

variable {first : Timestamp} {interval : Nanoseconds} {timer : Nat}

/-- A timer that the call creates is on schedule, inserted or on its way. -/
theorem Reachable.create {w w' : TimerWorld} {l : TimerLabel} (hinv : w.Reachable) (hinterval : 0 < interval)
    (hl : l = .addTimer timer first interval ∨ l = .addTimerElsewhere timer first interval)
    (hstep : w.step l = some w') : w'.OnSchedule first interval timer := by
  have hinit (hfresh : w.status timer = .unused) (hfires : w.fires l = []) (hphase : w'.phase = w.phase)
      (hlive : w'.status timer = .live) (hobject : w'.object timer = Timer.init first interval)
      (hplaced : w'.entriesOf timer = [⟨first, timer⟩] ∧ w'.arrivingOf timer = [] ∨
        w'.entriesOf timer = [] ∧ w'.arrivingOf timer = [⟨first, timer⟩]) :
      w'.OnSchedule first interval timer := by
    have hcalls : w'.callsOf timer = [] := by
      rw [step_callsOf hstep, hfires, hinv.unrun timer hfresh]
      rfl
    have hserves : w'.phase.serves timer = false := by
      rw [hphase]
      exact serves_of_entries (hinv.known timer hfresh).1
    refine ⟨hlive, ?_, by rw [hobject]; rfl, ?_, ?_, by simp [hcalls]⟩
    · rw [hobject]
      exact ⟨decide_eq_true hinterval, rfl⟩
    · rw [hobject]
      exact hplaced.imp_right fun h => ⟨h.1, h.2, hcalls⟩
    · simp [hobject, hserves, hcalls, Timer.init]
  obtain rfl | rfl := hl
  · have hundisturbed := hinv.known.addTimer hinterval hstep
    simp only [TimerWorld.step, Option.ite_none_right_eq_some, Option.some.injEq] at hstep
    obtain ⟨⟨_, _, hfresh⟩, rfl⟩ := hstep
    have hlive : (w.new timer first interval).status timer = .live := Function.update_self ..
    have hobject : ((w.new timer first interval).addTimerInLoop first timer w.time).object timer =
        Timer.init first interval := by
      rw [(TimerQueue.addTimerInLoop_spec hlive first w.time).2.1]
      exact Function.update_self ..
    have hentries := hundisturbed.entries
    rw [hobject] at hentries
    exact hinit hfresh rfl rfl hundisturbed.live hobject (Or.inl ⟨hentries, hundisturbed.unnamed.arrivingOf⟩)
  · simp only [TimerWorld.step, Option.ite_none_right_eq_some, Option.some.injEq] at hstep
    obtain ⟨⟨_, hfresh⟩, rfl⟩ := hstep
    obtain ⟨hentries, hunnamed⟩ := hinv.known timer hfresh
    refine hinit hfresh rfl rfl (Function.update_self ..) (Function.update_self ..) (Or.inr ⟨hentries, ?_⟩)
    have hnone := hunnamed.arrivingOf
    unfold arrivingOf at hnone ⊢
    simp only [EventLoop.push, EventLoop.wakeup]
    rw [← List.append_assoc, arriving_append, List.filter_append, hnone]
    simp [arriving]

/-- An entry of a timer on schedule is its own. -/
theorem OnSchedule.entry {w : TimerWorld} {e : Entry} (hinv : w.OnSchedule first interval timer)
    (he : e ∈ w.entriesOf timer) :
    e = ⟨(w.object timer).when_, timer⟩ ∧ w.entriesOf timer = [e] ∧ w.arrivingOf timer = [] := by
  obtain ⟨hentries, harriving⟩ | ⟨hentries, _⟩ := hinv.placed
  · rw [hentries] at he
    rw [List.mem_singleton.mp he]
    exact ⟨rfl, hentries, harriving⟩
  · rw [hentries] at he
    cases he

/-- The queued insertion of a timer on schedule puts it into the set. -/
private theorem OnSchedule.insert {w w' : TimerWorld} {when_ : Timestamp} (hinv : w.OnSchedule first interval timer)
    (hphase : w.phase = .running) (hphase' : w'.phase = .running)
    (htasks : w.tasks = .addTimer when_ timer :: w'.tasks) (hpending : w'.pendingTasks_ = w.pendingTasks_)
    (hqueue : w'.toTimerQueue = w.addTimerInLoop when_ timer w.time) (hcalls : w'.callsOf timer = w.callsOf timer) :
    w'.OnSchedule first interval timer := by
  have harrives : w.arrivingOf timer = ⟨when_, timer⟩ :: w'.arrivingOf timer := by
    rw [arrivingOf, arrivingOf, htasks, hpending]
    simp [arriving]
  obtain ⟨_, harriving⟩ | ⟨hentries, harriving, hnone⟩ := hinv.placed
  · rw [harriving] at harrives
    cases harrives
  obtain ⟨hwhen, harriving'⟩ := List.cons.inj (harriving.symm.trans harrives)
  obtain ⟨htimers, hobject, hstatus, _⟩ := TimerQueue.addTimerInLoop_spec hinv.live when_ w.time
  rw [← hqueue] at htimers hobject hstatus
  refine ⟨by rw [hstatus]; exact hinv.live, by rw [hobject]; exact hinv.repeats, by rw [hobject]; exact hinv.every,
    Or.inl ⟨?_, harriving'.symm⟩, ?_, by rw [hcalls]; exact hinv.punctual⟩
  · have hrunning : TimerPhase.running.entries = [] := rfl
    rw [entriesOf, hphase, hrunning, List.append_nil] at hentries
    have hnew : (⟨when_, timer⟩ : Entry) ∉ w.timers_ := by
      intro hmem
      exact List.filter_eq_nil_iff.mp hentries _ hmem (decide_eq_true rfl)
    have hperm := (TimerList.insert_perm hnew).filter fun f => decide (f.second = timer)
    rw [List.filter_cons_of_pos (by simp), hentries] at hperm
    rw [entriesOf, hphase', hrunning, List.append_nil, htimers, hobject, hwhen]
    exact List.perm_singleton.mp hperm
  · rw [hobject, hcalls, hphase', ← hphase]
    exact hinv.next

/-- The dispatch puts a timer on schedule back under its next time. -/
private theorem OnSchedule.settle {w w' : TimerWorld} (hinv : w.OnSchedule first interval timer) (hinterval : 0 < interval)
    (hrange : RestartsInRange timer w .settle) (hsettles : w.Settles timer .settle)
    (hstep : w.step .settle = some w') : w'.OnSchedule first interval timer := by
  have hcalls : w'.callsOf timer = w.callsOf timer := by
    rw [step_callsOf hstep]
    exact List.append_nil _
  obtain ⟨e, hhead, hsecond⟩ := Option.map_eq_some_iff.mp hsettles
  have hmem : e ∈ w.entriesOf timer :=
    List.mem_filter.mpr ⟨List.mem_append_right _ (List.mem_of_head? hhead), by simpa using hsecond⟩
  obtain ⟨rfl, hentries, harriving⟩ := hinv.entry hmem
  obtain ⟨hstatus, hobject, hentries', htasks⟩ :=
    step_settle_repeats hinv.repeats.2 hinv.repeats.1 hentries hsettles hstep
  obtain ⟨htasks, hpending⟩ := Prod.mk.inj htasks
  refine ⟨by rw [hstatus]; exact hinv.live, by rw [hobject]; exact hinv.repeats, by rw [hobject]; exact hinv.every,
    Or.inl ⟨by rw [hobject]; exact hentries', ?_⟩, ?_, by rw [hcalls]; exact hinv.punctual⟩
  · rw [arrivingOf, htasks, hpending]
    exact harriving
  · cases step_turns hstep with
    | stay hl => exact (hl.2.2 rfl).elim
    | outside hl => exact (hl.2.2 rfl).elim
    | read expired hl => cases hl
    | fire now e rest hl => cases hl
    | settle now e rest ran hl hold hphase =>
      have hserves : w.phase.serves timer = true := by
        rw [hold] at hhead ⊢
        cases hhead
        exact decide_eq_true rfl
      have hnext := hinv.next
      rw [hserves, if_pos rfl] at hnext
      have hpositive : 0 < (w.object timer).interval_.toInt := by
        rw [hinv.every]
        exact Int64.lt_iff_toInt_lt.mp hinterval
      have hrestart : (w.object timer).restart.when_.toInt =
          (w.object timer).when_.toInt + (w.object timer).interval_.toInt :=
        Int64.toInt_add_of_nonneg hpositive.le (hrange hsettles)
      rw [hobject, hcalls, ← hnext, ← hinv.every, hrestart]
      simp [hphase, TimerPhase.serves]

/-- Of a timer that exists, only the queued insertion and a cancellation run a body. -/
theorem step_touches {w w' : TimerWorld} {l : TimerLabel} {timer : Nat} (hused : w.status timer ≠ .unused)
    (hcancels : timer ∉ w.cancels l) (htouches : w.touches l = some timer) (hstep : w.step l = some w') :
    ∃ when_, w.phase = .running ∧ w'.phase = .running ∧ w.tasks = .addTimer when_ timer :: w'.tasks ∧
      w'.pendingTasks_ = w.pendingTasks_ ∧ w'.toTimerQueue = w.addTimerInLoop when_ timer w.time ∧ w.fires l = [] := by
  cases l with
  | task =>
    cases step_queues hstep with
    | take task hl hphase hphase' htasks hpending hqueue =>
      rw [touches, htasks, List.head?_cons, Option.bind_some] at htouches
      cases task with
      | addTimer when_ other =>
        cases htouches
        exact ⟨when_, hphase, hphase', htasks, hpending, hqueue, rfl⟩
      | cancelTimer other =>
        cases htouches
        simp [cancels, hphase, htasks] at hcancels
      | other => cases htouches
    | same hl => exact (hl rfl).elim
    | push task hl => exact (hl rfl).elim
    | swap hl => cases hl
  | addTimer other when_ interval =>
    simp only [TimerWorld.step, Option.ite_none_right_eq_some] at hstep
    cases htouches
    exact (hused hstep.1.2.2).elim
  | addTimerElsewhere other when_ interval =>
    simp only [TimerWorld.step, Option.ite_none_right_eq_some] at hstep
    cases htouches
    exact (hused hstep.1.2).elim
  | cancelTimer other =>
    cases htouches
    exact (hcancels rfl).elim
  | _ => cases htouches

/-- The dispatch calls a timer on schedule when its time has come. -/
private theorem OnSchedule.call {w w' : TimerWorld} {l : TimerLabel} (hinv : w.OnSchedule first interval timer)
    (hreach : w.Reachable) (hlive : w'.status timer = .live) (hobject : w'.object timer = w.object timer)
    (hentries : (w'.entriesOf timer).Perm (w.entriesOf timer)) (harriving : w'.arrivingOf timer = w.arrivingOf timer)
    (hcalled : ∃ r ∈ w.fires l, r.1 = timer) (hstep : w.step l = some w') : w'.OnSchedule first interval timer := by
  obtain ⟨r, hr, hrtimer⟩ := hcalled
  have hl : l = .fire := by
    by_contra hl
    rw [fires_of_ne hl] at hr
    cases hr
  subst hl
  have hcalls := step_callsOf hstep timer
  cases step_turns hstep with
  | stay hl => exact (hl.2.1 rfl).elim
  | outside hl => exact (hl.2.1 rfl).elim
  | read expired hl => cases hl
  | settle now e rest ran hl => cases hl
  | fire now e rest hl hold hphase =>
    have hsecond : e.second = timer := by
      simp only [fires, hold] at hr
      split at hr
      · cases hr
      · rw [← hrtimer, List.mem_singleton.mp hr]
    have hmem : e ∈ w.entriesOf timer := by
      refine List.mem_filter.mpr ⟨List.mem_append_right _ ?_, by simpa using hsecond⟩
      simp [hold, TimerPhase.entries]
    obtain ⟨hentry, hone, hnot⟩ := hinv.entry hmem
    have hfires : w.fires .fire = [(timer, now)] := by
      simp [fires, hold, hsecond, hinv.repeats.2]
    rw [hfires, List.filter_cons_of_pos (by simp), List.filter_nil, List.map_singleton] at hcalls
    have hnext : (w.object timer).when_.toInt = first.toInt + (w.callsOf timer).length * interval.toInt := by
      have hnext := hinv.next
      rw [hold] at hnext
      exact (Int.add_zero _).symm.trans hnext
    have hdue : (w.object timer).when_.toInt ≤ now.toInt := by
      have hdue := hreach.due
      rw [hold] at hdue
      have hle := hdue e (by simp)
      rw [hentry] at hle
      exact Int64.le_iff_toInt_le.mp hle
    refine ⟨hlive, by rw [hobject]; exact hinv.repeats, by rw [hobject]; exact hinv.every, Or.inl ⟨?_, ?_⟩, ?_, ?_⟩
    · rw [hobject, ← hentry, ← List.perm_singleton, ← hone]
      exact hentries
    · rw [harriving]
      exact hnot
    · rw [hobject, hphase, hcalls, TimerPhase.serves, hsecond, decide_eq_true rfl, if_pos rfl, hnext,
        List.length_append, List.length_singleton, Int.natCast_add, Int.natCast_one, Int.add_mul, Int.one_mul,
        Int.add_assoc]
    · intro k t ht
      rw [hcalls, List.getElem?_append] at ht
      split at ht
      · exact hinv.punctual k t ht
      · rename_i hk
        obtain ⟨hk', rfl⟩ : k = (w.callsOf timer).length ∧ t = now := by
          rw [Option.mem_def, List.getElem?_singleton] at ht
          split at ht
          · exact ⟨by omega, (Option.some.inj ht).symm⟩
          · cases ht
        rw [hk', ← hnext]
        exact hdue

/-- A timer that no step cancels stays on schedule. -/
theorem OnSchedule.step {w w' : TimerWorld} {l : TimerLabel} (hinv : w.OnSchedule first interval timer)
    (hinterval : 0 < interval) (hreach : w.Reachable) (hcancels : timer ∉ w.cancels l)
    (hrange : RestartsInRange timer w l) (hstep : w.step l = some w') : w'.OnSchedule first interval timer := by
  by_cases htouches : w.touches l = some timer
  · obtain ⟨when_, hphase, hphase', htasks, hpending, hqueue, hfires⟩ :=
      step_touches (by simp [hinv.live]) hcancels htouches hstep
    refine hinv.insert hphase hphase' htasks hpending hqueue ?_
    rw [step_callsOf hstep, hfires]
    exact List.append_nil _
  by_cases hsettles : w.Settles timer l
  · cases l with
    | settle => exact hinv.settle hinterval hrange hsettles hstep
    | _ => exact hsettles.elim
  obtain ⟨hstatus, hobject, hentries⟩ := step_untouched htouches hsettles hstep
  have harriving := step_arrivingOf hreach.idle htouches hstep
  have hlive : w'.status timer = .live := hstatus.trans hinv.live
  by_cases hcalled : ∃ r ∈ w.fires l, r.1 = timer
  · exact hinv.call hreach hlive hobject hentries harriving hcalled hstep
  · have hnone : (w.fires l).filter (·.1 = timer) = [] := by
      rw [List.filter_eq_nil_iff]
      exact fun r hr heq => hcalled ⟨r, hr, of_decide_eq_true heq⟩
    have hcalls : w'.callsOf timer = w.callsOf timer := by
      rw [step_callsOf hstep, hnone]
      exact List.append_nil _
    have hserves := (step_turns hstep).serves (fun r hr heq => hcalled ⟨r, hr, heq⟩) hsettles hinv.repeats.2
    refine ⟨hlive, by rw [hobject]; exact hinv.repeats, by rw [hobject]; exact hinv.every, ?_,
      by rw [hobject, hserves, hcalls]; exact hinv.next, by rw [hcalls]; exact hinv.punctual⟩
    rw [hobject, harriving, hcalls]
    obtain ⟨hone, hnot⟩ | ⟨hempty, hrest⟩ := hinv.placed
    · rw [hone, List.perm_singleton] at hentries
      exact Or.inl ⟨hentries, hnot⟩
    · rw [hempty, List.perm_nil] at hentries
      exact Or.inr ⟨hentries, hrest⟩

/-- The invariant of the timer, from its creation on. -/
theorem OnSchedule.run {w u : TimerWorld} {labels : List TimerLabel} (hinv : w.OnSchedule first interval timer)
    (hinterval : 0 < interval) (hreach : w.Reachable)
    (hcancels : Run.Along TimerWorld.step (fun w l => timer ∉ w.cancels l) w labels)
    (hrange : Run.Along TimerWorld.step (RestartsInRange timer) w labels)
    (hrun : Run.exec TimerWorld.step w labels = some u) : u.OnSchedule first interval timer ∧ u.Reachable :=
  Run.exec_invariant (I := fun w => w.OnSchedule first interval timer ∧ w.Reachable)
    (fun _ _ _ h hl hstep => ⟨h.1.step hinterval h.2 hl.1 hl.2 hstep, h.2.step hstep⟩) ⟨hinv, hreach⟩
    (hcancels.and hrange) hrun

/-- A dispatch holds at most one entry of a timer on schedule. -/
theorem OnSchedule.ahead_le {w : TimerWorld} (hinv : w.OnSchedule first interval timer) :
    (w.phase.ahead.filter (·.second = timer)).length ≤ 1 := by
  have hsublist : (w.phase.ahead.filter (·.second = timer)).Sublist (w.entriesOf timer) :=
    (w.phase.ahead_sublist.trans (List.sublist_append_right _ _)).filter _
  refine hsublist.length_le.trans ?_
  obtain ⟨hentries, _⟩ | ⟨hentries, _⟩ := hinv.placed
  · simp [hentries]
  · simp [hentries]

end

/-- From its creation on and as long as no step cancels it, a repeating timer has its calls no earlier than the
multiples of its interval after its first time; outside a dispatch, once it has been called, it is in the set
exactly once and under the time of its next call; and no dispatch calls it twice. Its times stay in the range of
their type. -/
theorem repeating_timer_on_schedule {time first : Timestamp} {interval : Nanoseconds} {timer : Nat} {l : TimerLabel}
    {before after : List TimerLabel} {v v' w : TimerWorld} (hinterval : 0 < interval)
    (hl : l = .addTimer timer first interval ∨ l = .addTimerElsewhere timer first interval)
    (hbefore : Run.exec step (init time) before = some v) (hcreate : v.step l = some v')
    (hcancels : Run.Along step (fun w l => timer ∉ w.cancels l) v' after)
    (hrange : Run.Along step (RestartsInRange timer) v' after) (hafter : Run.exec step v' after = some w) :
    (∀ k : Nat, ∀ now ∈ (w.callsOf timer)[k]?, first.toInt + k * interval.toInt ≤ now.toInt) ∧
    (w.phase.inHandleRead = false → w.callsOf timer ≠ [] →
      (w.timers_.filter (·.second = timer)).map (·.first.toInt) =
        [first.toInt + (w.callsOf timer).length * interval.toInt]) ∧
    ∀ earlier later u, after = earlier ++ .handleRead :: later → .handleRead ∉ later →
      Run.exec step v' earlier = some u → (w.callsOf timer).length ≤ (u.callsOf timer).length + 1 := by
  have hreach : v.Reachable := Run.exec_preserves (fun _ _ _ hinv hstep => hinv.step hstep) (.init time) hbefore
  have hinv := hreach.create hinterval hl hcreate
  obtain ⟨hw, _⟩ := hinv.run hinterval (hreach.step hcreate) hcancels hrange hafter
  refine ⟨hw.punctual, ?_, ?_⟩
  · intro houtside hcalled
    obtain ⟨hentries, _⟩ | ⟨_, _, hnone⟩ := hw.placed
    · have hserves : w.phase.serves timer = false := by
        cases hphase : w.phase with
        | calling => simp [hphase, TimerPhase.inHandleRead] at houtside
        | _ => rfl
      have hnext := hw.next
      simp only [hserves, Bool.false_eq_true, if_false, Int.add_zero] at hnext
      rw [entriesOf, entries_of_outside houtside, List.append_nil] at hentries
      rw [hentries, List.map_singleton, hnext]
    · exact (hcalled hnone).elim
  · rintro earlier later u rfl hlater hu
    obtain ⟨hfirst, hrest⟩ := hcancels.append hu
    obtain ⟨hrange, hranges⟩ := hrange.append hu
    obtain ⟨huinv, hureach⟩ := hinv.run hinterval (hreach.step hcreate) hfirst hrange hu
    rw [Run.exec_append hu] at hafter
    obtain ⟨r, hr, hafter⟩ := Run.exec_cons_eq_some.mp hafter
    have hrinv := huinv.step hinterval hureach (hrest.cons hr).1 (hranges.cons hr).1 hr
    have hcalls : r.callsOf timer = u.callsOf timer := by
      rw [step_callsOf hr]
      exact List.append_nil _
    have hbound : (w.callsOf timer).length + (w.phase.ahead.filter (·.second = timer)).length ≤
        (r.callsOf timer).length + (r.phase.ahead.filter (·.second = timer)).length := by
      have hnoread : Run.Along step (fun _ l => l ≠ .handleRead) r later :=
        .of_labels fun l hl heq => hlater (heq ▸ hl)
      refine Run.exec_invariant (I := fun s =>
        (s.callsOf timer).length + (s.phase.ahead.filter (·.second = timer)).length ≤
          (r.callsOf timer).length + (r.phase.ahead.filter (·.second = timer)).length) ?_ le_rfl hnoread hafter
      intro s l t hs hread hstep
      exact (step_ahead hread hstep timer).trans hs
    have hahead := hrinv.ahead_le
    rw [hcalls] at hbound
    omega

/-- A timer that another thread adds for 5 and every 10 is dispatched at 100 and again at once: it has been called
twice, and its next time is 25. -/
theorem repeating_timer_on_schedule_late : ∃ v' w : TimerWorld,
    (init 0).step (.addTimerElsewhere 1 5 10) = some v' ∧
    Run.exec step v' [.swap, .task, .endTasks, .tick 100, .poll, .handleRead, .fire, .settle, .endRead, .handleRead,
      .fire, .settle, .endRead] = some w ∧
    w.callsOf 1 = [100, 100] ∧ (w.timers_.filter (·.second = 1)).map (·.first.toInt) = [25] := by
  obtain ⟨w, hrun, houtside, hcalls⟩ := Run.Reaches.exists
    (show Run.Reaches step (init 0) [.addTimerElsewhere 1 5 10, .swap, .task, .endTasks, .tick 100, .poll, .handleRead,
      .fire, .settle, .endRead, .handleRead, .fire, .settle, .endRead]
      (fun w => w.phase.inHandleRead = false ∧ w.callsOf 1 = [100, 100]) by decide +kernel)
  obtain ⟨v', hcreate, hafter⟩ := Run.exec_cons_eq_some.mp hrun
  have hstart : Run.exec step (init 0) [] = some (init 0) := rfl
  have hschedule := repeating_timer_on_schedule (by decide) (Or.inr rfl) hstart hcreate
    (by cases hcreate; decide +kernel) (by cases hcreate; decide +kernel) hafter
  refine ⟨v', w, hcreate, hafter, hcalls, ?_⟩
  rw [hschedule.2.1 houtside (by simp [hcalls]), hcalls]
  rfl

end TimerWorld

end mudong.ev
