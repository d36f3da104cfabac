import Mudong.EventLoop.Moves

namespace mudong.ev

/-- The steps that the owner thread takes in `loop()` by itself. -/
def LoopLabel.own {τ : Type} : LoopLabel τ → Bool
  | .test => true
  | .poll _ => true
  | .handleRead => true
  | .swap => true
  | .setDoing => true
  | .runTask => true
  | .clearDoing => true
  | _ => false

/-- The step stores the flag that ends the loop. -/
def LoopLabel.quits {τ : Type} : LoopLabel τ → Bool
  | .quit _ => true
  | .quitInLoop => true
  | _ => false

/-- The step belongs to a call that `thread` makes from outside the loop's thread. -/
def LoopLabel.calledBy {τ : Type} (thread : Nat) : LoopLabel τ → Bool
  | .push t _ => t = thread
  | .quit t => t = thread
  | .wakeup t => t = thread
  | _ => false

namespace LoopWorld

variable {τ : Type}

/-- No `quit()` of another thread stores its flag before `loop()` has reset it. -/
def QuitTimely (w : LoopWorld τ) (l : LoopLabel τ) : Prop := (l matches .quit _) → w.BeforeReset = false

instance decidableQuitTimely (w : LoopWorld τ) (l : LoopLabel τ) : Decidable (QuitTimely w l) :=
  inferInstanceAs (Decidable (_ → _))

/-- The flag of a `quit()` is kept, and its wakeup waits for the `epoll_wait` that the loop may still be in. -/
structure QuitInv (w : LoopWorld τ) : Prop where
  kept : (0 < w.quits ∨ ∃ thread, w.calls thread = .quitStored) → w.BeforeReset = false ∧ w.quit_ = true
  awake : 0 < w.quits → w.pc = .polling → 0 < w.wakeupfd_

theorem init_quitInv : (init : LoopWorld τ).QuitInv := by
  refine ⟨?_, ?_⟩
  · intro h
    simp [init] at h
  · intro h
    simp [init] at h

/-- A step of the owner thread that leaves the flag and the calls alone and does not end in front of a sleeping
`epoll_wait`. -/
theorem QuitInv.move {w w' : LoopWorld τ} (hinv : w.QuitInv) (hsame : (w'.quits, w'.calls) = (w.quits, w.calls))
    (hquit : w'.quit_ = w.quit_) (hreset : w.BeforeReset = false → w'.BeforeReset = false)
    (hpolling : w'.pc = .polling → w.quit_ = false) : w'.QuitInv := by
  simp only [Prod.mk.injEq] at hsame
  obtain ⟨hquits, hcalls⟩ := hsame
  have hkept := hinv.kept
  rw [← hquits, ← hcalls] at hkept
  refine ⟨fun h => ?_, fun h hpc => ?_⟩
  · obtain ⟨hpast, hset⟩ := hkept h
    exact ⟨hreset hpast, hquit.trans hset⟩
  · have hset := (hkept (Or.inl h)).2
    rw [hpolling hpc] at hset
    cases hset

theorem QuitInv.step {w w' : LoopWorld τ} {l : LoopLabel τ} (hinv : w.QuitInv) (htimely : QuitTimely w l)
    (hstep : w.step l = some w') : w'.QuitInv := by
  cases step_moves hstep with
  | publish hpc | enter hpc =>
    refine hinv.move rfl rfl ?_ (by simp)
    intro hpast
    simp [BeforeReset, hpc] at hpast
  | reset hpc =>
    refine ⟨fun h => ?_, fun _ h => by cases h⟩
    obtain ⟨hpast, _⟩ := hinv.kept h
    simp [BeforeReset, hpc] at hpast
  | leave hpc hquit => exact hinv.move rfl rfl (fun _ => rfl) (by simp)
  | stay hpc hquit => exact hinv.move rfl rfl (fun _ => rfl) (fun _ => hquit)
  | poll hpc hwoken => exact hinv.move rfl rfl (fun _ => rfl) (by simp)
  | handleRead hpc => exact hinv.move rfl rfl (fun _ => rfl) (by simp)
  | swap hpc => exact hinv.move rfl rfl (fun _ => rfl) (by simp)
  | setDoing hpc => exact hinv.move rfl rfl (fun _ => rfl) (by simp)
  | runTask hpc => exact hinv.move rfl rfl (fun _ => rfl) (by simp)
  | clearDoing hpc => exact hinv.move rfl rfl (fun _ => rfl) (by simp)
  | queueInLoop huser =>
    refine hinv.move rfl (EventLoop.queueInLoop_quit_ _ _) (fun h => h) ?_
    intro (hpc : w.pc = .polling)
    simp [InUserCode, hpc] at huser
  | quitInLoop huser =>
    refine ⟨fun h => ⟨(hinv.kept h).1, rfl⟩, fun _ (hpc : w.pc = .polling) => ?_⟩
    simp [InUserCode, hpc] at huser
  | push hpc hcall =>
    refine ⟨?_, hinv.awake⟩
    rintro (h | ⟨thread, h⟩)
    · exact hinv.kept (Or.inl h)
    · simp only [Function.update_apply] at h
      split at h
      · cases h
      · exact hinv.kept (Or.inr ⟨thread, h⟩)
  | quit hpc hcall => exact ⟨fun _ => ⟨htimely rfl, rfl⟩, hinv.awake⟩
  | wakeupPushed hcall =>
    refine ⟨?_, fun _ _ => Nat.succ_pos _⟩
    rintro (h | ⟨thread, h⟩)
    · exact hinv.kept (Or.inl h)
    · simp only [Function.update_apply] at h
      split at h
      · cases h
      · exact hinv.kept (Or.inr ⟨thread, h⟩)
  | wakeupQuit hcall => exact ⟨fun _ => hinv.kept (Or.inr ⟨_, hcall⟩), fun _ _ => Nat.succ_pos _⟩

theorem run_quitInv {w : LoopWorld τ} {labels : List (LoopLabel τ)} (htimely : Run.Along step QuitTimely init labels)
    (hrun : Run.exec step init labels = some w) : w.QuitInv :=
  Run.exec_invariant (fun _ _ _ hinv htimely hstep => hinv.step htimely hstep) init_quitInv htimely hrun

/-- The owner thread can leave `loop()` by its own steps. -/
def Leaves (w : LoopWorld τ) : Prop := Run.CanReach step (fun l => l.own = true) w fun w' => w'.pc = .left

theorem leaves_of_test {w : LoopWorld τ} (hquit : w.quit_ = true) (hpc : w.pc = .test) : w.Leaves := by
  have hleaves : Leaves { w with pc := .left } := .refl rfl
  exact Run.CanReach.cons hleaves (l := .test) rfl (by simp [step, hpc, hquit])

theorem leaves_of_running {w : LoopWorld τ} (hquit : w.quit_ = true) {tasks : List τ} (hpc : w.pc = .running tasks) :
    w.Leaves := by
  induction tasks generalizing w with
  | nil =>
    have hleaves : Leaves { w with pc := .test, doingPendingTasks_ := false } := leaves_of_test hquit rfl
    exact Run.CanReach.cons hleaves (l := .clearDoing) rfl (by simp [step, hpc])
  | cons task rest ih =>
    have hleaves : Leaves { w with pc := .running rest } := ih hquit rfl
    exact Run.CanReach.cons hleaves (l := .runTask) rfl (by simp [step, hpc])

theorem leaves_of_swapped {w : LoopWorld τ} (hquit : w.quit_ = true) {tasks : List τ} (hpc : w.pc = .swapped tasks) :
    w.Leaves := by
  have hleaves : Leaves { w with pc := .running tasks, doingPendingTasks_ := true } := leaves_of_running hquit rfl
  exact Run.CanReach.cons hleaves (l := .setDoing) rfl (by simp [step, hpc])

theorem leaves_of_handling {w : LoopWorld τ} (hquit : w.quit_ = true) {woken : Bool} (hpc : w.pc = .handling woken) :
    w.Leaves := by
  have hhandled (v : LoopWorld τ) (hquit : v.quit_ = true) (hpc : v.pc = .handling false) : v.Leaves := by
    have hleaves : Leaves { v with pc := .swapped v.pendingTasks_, pendingTasks_ := [] } := leaves_of_swapped hquit rfl
    exact Run.CanReach.cons hleaves (l := .swap) rfl (by simp [step, hpc])
  cases woken with
  | false => exact hhandled w hquit hpc
  | true =>
    have hleaves : Leaves { w with toEventLoop := w.handleRead, pc := .handling false } := hhandled _ hquit rfl
    exact Run.CanReach.cons hleaves (l := .handleRead) rfl (by simp [step, hpc])

/-- A loop whose flag is set is not held up: it leaves from wherever it stands in `loop()`, unless it waits in an
`epoll_wait` that nothing ends. -/
theorem leaves_of_quit {w : LoopWorld τ} (hquit : w.quit_ = true) (hpast : w.BeforeReset = false)
    (hawake : w.pc = .polling → 0 < w.wakeupfd_) : w.Leaves := by
  cases hpc : w.pc with
  | constructed | published | entered => simp [BeforeReset, hpc] at hpast
  | test => exact leaves_of_test hquit hpc
  | polling =>
    have hleaves : Leaves { w with pc := .handling true, polls := w.polls + 1 } := leaves_of_handling hquit rfl
    exact Run.CanReach.cons hleaves (l := .poll true) rfl (by simp [step, hpc, hawake hpc])
  | handling woken => exact leaves_of_handling hquit hpc
  | swapped tasks => exact leaves_of_swapped hquit hpc
  | running tasks => exact leaves_of_running hquit hpc
  | left => exact .refl hpc

/-- The returns of `epoll_wait` so far, with the one that the owner thread now waits for. -/
def rounds (w : LoopWorld τ) : Nat :=
  match w.pc with
  | .polling => w.polls + 1
  | _ => w.polls

theorem polls_le_rounds (w : LoopWorld τ) : w.polls ≤ w.rounds := by
  unfold rounds
  split <;> omega

theorem rounds_le_polls (w : LoopWorld τ) : w.rounds ≤ w.polls + 1 := by
  unfold rounds
  split <;> omega

/-- A set flag lets the owner thread into no further `epoll_wait`. -/
theorem step_rounds {w w' : LoopWorld τ} {l : LoopLabel τ} (hpast : w.BeforeReset = false) (hquit : w.quit_ = true)
    (hstep : w.step l = some w') : w'.BeforeReset = false ∧ w'.quit_ = true ∧ w'.rounds ≤ w.rounds := by
  cases step_moves hstep with
  | publish hpc | enter hpc | reset hpc => simp [BeforeReset, hpc] at hpast
  | stay hpc hstay => simp [hquit] at hstay
  | queueInLoop huser => exact ⟨hpast, by simpa using hquit, Nat.le_refl _⟩
  | quitInLoop huser => exact ⟨hpast, rfl, Nat.le_refl _⟩
  | push hpc hcall => exact ⟨hpast, hquit, Nat.le_refl _⟩
  | quit hpc hcall => exact ⟨hpast, rfl, Nat.le_refl _⟩
  | wakeupPushed hcall => exact ⟨hpast, hquit, Nat.le_refl _⟩
  | wakeupQuit hcall => exact ⟨hpast, hquit, Nat.le_refl _⟩
  | leave hpc | poll hpc | handleRead hpc | swap hpc | setDoing hpc | runTask hpc | clearDoing hpc =>
    exact ⟨rfl, hquit, by simp [rounds, hpc]⟩

/-- Without a `quit()` the flag stays clear and the owner thread stays in `loop()`. -/
theorem step_unquit {w w' : LoopWorld τ} {l : LoopLabel τ} (hstep : w.step l = some w') (hl : l.quits = false)
    (hquit : w.quit_ = false) (hpc : w.pc ≠ .left) : w'.quit_ = false ∧ w'.pc ≠ .left := by
  cases step_moves hstep with
  | leave _ hset => simp [hquit] at hset
  | queueInLoop _ => exact ⟨by simpa using hquit, hpc⟩
  | quitInLoop _ => cases hl
  | quit _ _ => cases hl
  | push _ _ => exact ⟨hquit, hpc⟩
  | wakeupPushed _ => exact ⟨hquit, hpc⟩
  | wakeupQuit _ => exact ⟨hquit, hpc⟩
  | reset _ => exact ⟨rfl, by simp⟩
  | _ => exact ⟨hquit, by simp⟩

theorem step_quits_le {w w' : LoopWorld τ} {l : LoopLabel τ} (hstep : w.step l = some w') : w.quits ≤ w'.quits := by
  cases step_moves hstep with
  | wakeupQuit _ => exact Nat.le_succ _
  | _ => exact Nat.le_refl _

theorem step_calls {w w' : LoopWorld τ} {l : LoopLabel τ} (hstep : w.step l = some w') {thread : Nat}
    (hl : l.calledBy thread = false) : w'.calls thread = w.calls thread := by
  cases step_moves hstep with
  | push _ _ | quit _ _ | wakeupPushed _ | wakeupQuit _ =>
    have hne := of_decide_eq_false hl
    exact Function.update_of_ne (Ne.symm hne) _ _
  | _ => rfl

/-- Whatever was asked of the loop so far, it goes on: its flag is clear, or about to be cleared. -/
def Deaf (w : LoopWorld τ) : Prop := (w.BeforeReset = true ∨ w.quit_ = false) ∧ w.pc ≠ .left

theorem Deaf.step {w w' : LoopWorld τ} {l : LoopLabel τ} (h : w.Deaf) (hl : l.quits = false)
    (hstep : w.step l = some w') : w'.Deaf := by
  obtain ⟨hdeaf, hleft⟩ := h
  cases step_moves hstep with
  | publish _ | enter _ => exact ⟨Or.inl rfl, by simp⟩
  | reset _ => exact ⟨Or.inr rfl, by simp⟩
  | queueInLoop _ =>
    refine ⟨hdeaf.imp (fun h => h) fun h => ?_, hleft⟩
    simpa using h
  | quitInLoop _ | quit _ _ => cases hl
  | push _ _ => exact ⟨hdeaf, hleft⟩
  | wakeupPushed _ => exact ⟨hdeaf, hleft⟩
  | wakeupQuit _ => exact ⟨hdeaf, hleft⟩
  | leave hpc hquit => simp [BeforeReset, hpc, hquit] at hdeaf
  | stay hpc | poll hpc | handleRead hpc | swap hpc | setDoing hpc | runTask hpc | clearDoing hpc =>
    have hquit : w.quit_ = false := by simpa [BeforeReset, hpc] using hdeaf
    exact ⟨Or.inr hquit, by simp⟩

/-- A `quit()` made while the loop runs ends it. Once the call has returned, the owner thread can leave `loop()` by
its own steps from wherever it stands, and whatever else happens it returns from `epoll_wait` at most once more. -/
theorem quit_ends_loop {w : LoopWorld τ} {labels : List (LoopLabel τ)}
    (htimely : Run.Along step QuitTimely init labels) (hrun : Run.exec step init labels = some w)
    (hquits : 0 < w.quits) :
    w.Leaves ∧ ∀ later w', Run.exec step w later = some w' → w'.polls ≤ w.polls + 1 := by
  have hinv := run_quitInv htimely hrun
  obtain ⟨hpast, hquit⟩ := hinv.kept (Or.inl hquits)
  refine ⟨leaves_of_quit hquit hpast (hinv.awake hquits), fun later w' hlater => ?_⟩
  have hbound : w'.BeforeReset = false ∧ w'.quit_ = true ∧ w'.rounds ≤ w.rounds := by
    refine Run.exec_preserves (I := fun v => v.BeforeReset = false ∧ v.quit_ = true ∧ v.rounds ≤ w.rounds) ?_
      ⟨hpast, hquit, Nat.le_refl _⟩ hlater
    rintro u l v ⟨hpast, hquit, hrounds⟩ hstep
    obtain ⟨hpast', hquit', hle⟩ := step_rounds hpast hquit hstep
    exact ⟨hpast', hquit', Nat.le_trans hle hrounds⟩
  calc w'.polls ≤ w'.rounds := w'.polls_le_rounds
    _ ≤ w.rounds := hbound.2.2
    _ ≤ w.polls + 1 := w.rounds_le_polls

/-- The loop is caught in its `epoll_wait` with a task still to come. -/
theorem quit_ends_loop_from_poll : ∃ w : LoopWorld Nat,
    Run.exec step init [.publish, .enter, .reset, .test, .push 1 5, .quit 0, .wakeup 0] = some w ∧
      w.pc = .polling ∧ 0 < w.quits ∧ w.Leaves ∧
      ∀ later w', Run.exec step w later = some w' → w'.polls ≤ w.polls + 1 := by
  apply Run.Reaches.exists_of (p := fun w => w.pc = .polling ∧ 0 < w.quits)
  · decide
  · rintro w hrun ⟨hpc, hquits⟩
    exact ⟨hpc, hquits, quit_ends_loop (by decide) hrun hquits⟩

end LoopWorld

end mudong.ev
