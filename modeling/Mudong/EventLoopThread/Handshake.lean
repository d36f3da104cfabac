import Mudong.EventLoopThread.Moves

namespace mudong.ev

/-- How the loop stands to the place of its thread in `runInThread`. -/
def RunnerPc.Fits {τ : Type} (pc : LoopPc τ) : RunnerPc → Prop
  | .unborn => pc = .constructed
  | .constructing => pc = .constructed
  | .publishing => pc = .constructed
  | .counting => pc = .published
  | .looping => pc ≠ .constructed ∧ pc ≠ .published
  | .clearing => pc = .left
  | .destructing => pc = .left
  | .finished => pc = .left

/-- The thread has not yet published its loop. -/
def RunnerPc.early : RunnerPc → Bool
  | .unborn => true
  | .constructing => true
  | .publishing => true
  | _ => false

/-- The thread has set `loop_` and not cleared it. -/
def RunnerPc.pointed : RunnerPc → Bool
  | .counting => true
  | .looping => true
  | .clearing => true
  | _ => false

namespace EventLoopThread

variable {τ : Type}

/-- The faults that only a `quit` can have. -/
def Quitting : ThreadFault → Bool
  | .quit => true
  | .dangling => true
  | _ => false

/-- What the latch orders: the owner gets on only when the thread has published its loop, and until the pointer is
given out nobody ends that loop. -/
structure Inv (w : EventLoopThread τ) : Prop where
  latch : CountDownLatch.LatchInv 1 w.latch_
  fits : w.runner.Fits w.loop.pc
  pointer : w.loop_ = w.runner.pointed
  unborn : w.owner = .constructed → w.runner = .unborn ∧ w.started_ = false
  uncounted : w.runner.early = true → w.latch_.counts = 0 ∧ w.latch_.counters () = .idle
  waited : w.owner = .asserting → w.latch_.waiters () = .returned
  calm : w.owner.handedOut = false → w.loop.quit_ = false ∧ w.loop.pc ≠ .left
  faults : ∀ fault ∈ w.faults, Quitting fault = true

theorem quitting_snoc {faults : List ThreadFault} (hfaults : ∀ fault ∈ faults, Quitting fault = true)
    {fault : ThreadFault} (hfault : Quitting fault = true) : ∀ other ∈ faults ++ [fault], Quitting other = true := by
  intro other hother
  obtain hother | hother := List.mem_append.mp hother
  · exact hfaults other hother
  · rw [List.mem_singleton.mp hother]
    exact hfault

theorem quitting_check {w : EventLoopThread τ} (hfaults : ∀ fault ∈ w.faults, Quitting fault = true)
    {fault : ThreadFault} (hfault : Quitting fault = true) {p : Prop} [Decidable p] :
    ∀ other ∈ (w.check fault p).faults, Quitting other = true := by
  unfold check
  dsimp only
  split
  · exact hfaults
  · exact quitting_snoc hfaults hfault

theorem init_inv : (init : EventLoopThread τ).Inv := by
  refine ⟨CountDownLatch.init_latchInv 1, rfl, rfl, fun _ => ⟨rfl, rfl⟩, fun _ => ⟨rfl, rfl⟩, ?_, ?_, ?_⟩
  · intro h
    cases h
  · intro _
    exact ⟨rfl, by simp [init, LoopWorld.init]⟩
  · simp [init]

theorem Inv.published {w : EventLoopThread τ} (hinv : w.Inv) (howner : w.owner = .asserting) :
    w.runner = .counting ∨ w.runner = .looping := by
  have hcounts : (1 : Int) ≤ w.latch_.counts := by
    have hopen := hinv.latch.waiters ()
    rw [hinv.waited howner] at hopen
    have hcounted := hinv.latch.counted
    simp only [WaiterPc.Fits] at hopen
    omega
  have hpc := (hinv.calm (by rw [howner]; rfl)).2
  have hfits := hinv.fits
  cases hrunner : w.runner with
  | counting => exact Or.inl rfl
  | looping => exact Or.inr rfl
  | unborn | constructing | publishing =>
    have hzero := (hinv.uncounted (by rw [hrunner]; rfl)).1
    simp [hzero] at hcounts
  | clearing | destructing | finished =>
    rw [hrunner] at hfits
    exact (hpc hfits).elim

/-- The steps of the loop leave it where its thread stands. -/
theorem fits_step {w : EventLoopThread τ} {l : LoopLabel τ} {loop : LoopWorld τ} (hfits : w.runner.Fits w.loop.pc)
    (hmay : w.mayStep l = true) (hloop : w.loop.step l = some loop) : w.runner.Fits loop.pc := by
  have hlooping {pc : LoopPc τ} (hrunner : w.runner = .looping) (hpc : pc ≠ .constructed ∧ pc ≠ .published) :
      w.runner.Fits pc := by
    rw [hrunner]
    exact hpc
  cases LoopWorld.step_moves hloop with
  | publish _ | enter _ => cases hmay
  | queueInLoop _ | quitInLoop _ | push _ _ | quit _ _ | wakeupPushed _ | wakeupQuit _ => exact hfits
  | _ => exact hlooping (by simpa [mayStep] using hmay) (by simp)

theorem calm_step {w : EventLoopThread τ} {l : LoopLabel τ} {loop : LoopWorld τ}
    (hcalm : w.loop.quit_ = false ∧ w.loop.pc ≠ .left) (hout : w.owner.handedOut = false) (hmay : w.mayStep l = true)
    (hloop : w.loop.step l = some loop) : loop.quit_ = false ∧ loop.pc ≠ .left := by
  refine LoopWorld.step_unquit hloop ?_ hcalm.1 hcalm.2
  cases l with
  | quit thread => simp [mayStep, hout] at hmay
  | quitInLoop => simp [mayStep, hout] at hmay
  | _ => rfl

/-- The owner goes on after `startLoop` has returned. -/
theorem Inv.move_owner {w : EventLoopThread τ} (hinv : w.Inv) {owner : OwnerPc} {loop : LoopWorld τ}
    {faults : List ThreadFault} (hout : owner.handedOut = true) (hpc : loop.pc = w.loop.pc)
    (hfaults : ∀ fault ∈ faults, Quitting fault = true) : Inv { w with owner, loop, faults } := by
  refine ⟨hinv.latch, hpc ▸ hinv.fits, hinv.pointer, ?_, hinv.uncounted, ?_, ?_, hfaults⟩
  · rintro rfl
    cases hout
  · rintro rfl
    cases hout
  · intro h
    simp [hout] at h

/-- The thread goes on in `runInThread`, outside of the latch and of `loop()`. -/
theorem Inv.move_runner {w : EventLoopThread τ} (hinv : w.Inv) (hborn : w.runner ≠ .unborn) {runner : RunnerPc}
    {loop_ : Bool} (hearly : runner.early = true → w.runner.early = true) (hfits : runner.Fits w.loop.pc)
    (hpointer : loop_ = runner.pointed) : Inv { w with runner, loop_ } := by
  refine ⟨hinv.latch, hfits, hpointer, ?_, fun h => hinv.uncounted (hearly h), hinv.waited, hinv.calm, hinv.faults⟩
  intro howner
  exact (hborn (hinv.unborn howner).1).elim

theorem Inv.step {w w' : EventLoopThread τ} {l : ThreadLabel τ} (hinv : w.Inv) (hstep : w.step l = some w') :
    w'.Inv := by
  have hfits := hinv.fits
  cases step_moves hstep with
  | startLoop howner hlatch =>
    obtain ⟨hrunner, hstarted⟩ := hinv.unborn howner
    have hpointer := hinv.pointer
    rw [hrunner] at hpointer hfits
    have huncounted := hinv.uncounted (by rw [hrunner]; rfl)
    have hsame := CountDownLatch.step_uncounted hlatch (fun _ => huncounted.2) (by simp)
    refine ⟨hinv.latch.step hlatch, hfits, hpointer, by simp, fun _ => ?_, by simp, ?_, ?_⟩
    · exact ⟨hsame.1.trans huncounted.1, (congrFun hsame.2 ()).trans huncounted.2⟩
    · intro _
      exact hinv.calm (by rw [howner]; rfl)
    · simpa [check, hstarted, hpointer, RunnerPc.pointed] using hinv.faults
  | destroyUnstarted howner => exact hinv.move_owner rfl rfl hinv.faults
  | destroy howner => exact hinv.move_owner rfl rfl hinv.faults
  | waited howner hreturned =>
    refine ⟨hinv.latch, hfits, hinv.pointer, by simp, hinv.uncounted, fun _ => hreturned, ?_, hinv.faults⟩
    intro _
    exact hinv.calm (by rw [howner]; rfl)
  | assertLoop howner =>
    have hset : w.loop_ = true := by
      rw [hinv.pointer]
      obtain hrunner | hrunner := hinv.published howner <;> rw [hrunner] <;> rfl
    refine hinv.move_owner rfl rfl ?_
    simpa [check, hset] using hinv.faults
  | readLoop howner =>
    refine hinv.move_owner ?_ rfl hinv.faults
    cases w.loop_ <;> rfl
  | quit howner halive hloop =>
    refine hinv.move_owner rfl ?_ ?_
    · cases LoopWorld.step_moves hloop
      rfl
    · exact quitting_check hinv.faults rfl
  | quitGone howner hgone => exact hinv.move_owner rfl rfl (quitting_snoc (quitting_check hinv.faults rfl) rfl)
  | wakeup howner halive hloop =>
    refine hinv.move_owner rfl ?_ hinv.faults
    cases LoopWorld.step_moves hloop <;> rfl
  | wakeupGone howner hgone => exact hinv.move_owner rfl rfl (quitting_snoc hinv.faults rfl)
  | join howner hrunner => exact hinv.move_owner rfl rfl hinv.faults
  | construct hrunner =>
    have hpointer := hinv.pointer
    rw [hrunner] at hpointer hfits
    exact hinv.move_runner (by simp [hrunner]) (by simp [hrunner, RunnerPc.early]) hfits hpointer
  | publish hrunner hloop hlatch =>
    refine ⟨hinv.latch.step hlatch, ?_, rfl, ?_, by simp [RunnerPc.early], ?_, ?_, hinv.faults⟩
    · cases LoopWorld.step_moves hloop
      rfl
    · intro howner
      have hunborn := (hinv.unborn howner).1
      simp [hrunner] at hunborn
    · intro howner
      exact CountDownLatch.step_returned hlatch (hinv.waited howner) (by simp)
    · intro hout
      obtain ⟨hquit, _⟩ := hinv.calm hout
      cases LoopWorld.step_moves hloop
      exact ⟨hquit, by simp⟩
  | enter hrunner hcounted hloop =>
    have hpointer := hinv.pointer
    rw [hrunner] at hpointer
    refine ⟨hinv.latch, ?_, hpointer, ?_, by simp [RunnerPc.early], hinv.waited, ?_, hinv.faults⟩
    · cases LoopWorld.step_moves hloop
      exact ⟨by simp, by simp⟩
    · intro howner
      have hunborn := (hinv.unborn howner).1
      simp [hrunner] at hunborn
    · intro hout
      obtain ⟨hquit, _⟩ := hinv.calm hout
      cases LoopWorld.step_moves hloop
      exact ⟨hquit, by simp⟩
  | leave hrunner hleft =>
    have hpointer := hinv.pointer
    rw [hrunner] at hpointer
    exact hinv.move_runner (by simp [hrunner]) (by simp [RunnerPc.early]) hleft hpointer
  | clear hrunner =>
    rw [hrunner] at hfits
    exact hinv.move_runner (by simp [hrunner]) (by simp [RunnerPc.early]) hfits rfl
  | destruct hrunner =>
    have hpointer := hinv.pointer
    rw [hrunner] at hpointer hfits
    exact hinv.move_runner (by simp [hrunner]) (by simp [RunnerPc.early]) hfits hpointer
  | latch hwait hcount hlatch =>
    refine ⟨hinv.latch.step hlatch, hfits, hinv.pointer, hinv.unborn, ?_, ?_, hinv.calm, hinv.faults⟩
    · intro hearly
      obtain ⟨hcounts, hidle⟩ := hinv.uncounted hearly
      obtain ⟨hcounts', hcounters'⟩ := CountDownLatch.step_uncounted hlatch (fun _ => hidle) (fun _ => hcount)
      exact ⟨hcounts'.trans hcounts, (congrFun hcounters' ()).trans hidle⟩
    · intro howner
      exact CountDownLatch.step_returned hlatch (hinv.waited howner) hwait
  | loop hmay hloop =>
    refine ⟨hinv.latch, fits_step (w := w) hfits hmay hloop, hinv.pointer, hinv.unborn, hinv.uncounted, hinv.waited, ?_,
      hinv.faults⟩
    intro hout
    exact calm_step (hinv.calm hout) hout hmay hloop

theorem run_inv {w : EventLoopThread τ} {labels : List (ThreadLabel τ)} (hrun : Run.exec step init labels = some w) :
    w.Inv :=
  Run.exec_preserves (fun _ _ _ hinv hstep => hinv.step hstep) init_inv hrun

/-- `startLoop` returns the pointer to a loop that its thread has constructed and that nobody has ended: none of its
assertions can fail, and when it comes to the last of them the pointer is set and the thread is in front of `loop()`
or inside it. -/
theorem startLoop_returns_live_loop {w : EventLoopThread τ} {labels : List (ThreadLabel τ)}
    (hrun : Run.exec step init labels = some w) :
    (∀ fault ∈ w.faults, Quitting fault = true) ∧
      (w.owner = .asserting → w.loop_ = true ∧ (w.runner = .counting ∨ w.runner = .looping) ∧
        w.loop.quit_ = false ∧ w.loop.pc ≠ .constructed ∧ w.loop.pc ≠ .left) := by
  have hinv := run_inv hrun
  refine ⟨hinv.faults, fun howner => ?_⟩
  have hrunner := hinv.published howner
  obtain ⟨hquit, hleft⟩ := hinv.calm (by rw [howner]; rfl)
  refine ⟨?_, hrunner, hquit, ?_, hleft⟩
  · rw [hinv.pointer]
    obtain hrunner | hrunner := hrunner <;> rw [hrunner] <;> rfl
  · have hfits := hinv.fits
    obtain hrunner | hrunner := hrunner
    · rw [hrunner] at hfits
      rw [show w.loop.pc = .published from hfits]
      simp
    · rw [hrunner] at hfits
      exact hfits.1

/-- The owner has slept in the latch and is woken by a thread that is still inside `count()`. -/
theorem startLoop_returns_live_loop_woken : ∃ w : EventLoopThread Nat,
    Run.exec step init [.startLoop, .latch (.waiter ()), .latch (.waiter ()), .latch (.waiter ()), .runner, .runner,
      .latch (.counter ()), .latch (.counter ()), .latch (.counter ()), .latch (.counter ()), .latch (.counter ()),
      .latch (.waiter ()), .latch (.waiter ()), .latch (.waiter ()), .owner] = some w ∧ w.owner = .asserting ∧
    (∀ fault ∈ w.faults, Quitting fault = true) ∧
      (w.owner = .asserting → w.loop_ = true ∧ (w.runner = .counting ∨ w.runner = .looping) ∧
        w.loop.quit_ = false ∧ w.loop.pc ≠ .constructed ∧ w.loop.pc ≠ .left) := by
  apply Run.Reaches.exists_of (p := fun w => w.owner = .asserting)
  · decide
  · intro w hrun howner
    exact ⟨howner, startLoop_returns_live_loop hrun⟩

end EventLoopThread

end mudong.ev
