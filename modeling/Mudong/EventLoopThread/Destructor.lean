import Mudong.EventLoopThread.Handshake

namespace mudong.ev

/-- The destructor has not yet ended the loop. -/
def OwnerPc.unquit : OwnerPc → Bool
  | .waking => false
  | .joining => false
  | .destroyed => false
  | _ => true

/-- User code, in the loop's thread or in another one, ends the loop. -/
def ThreadLabel.userQuits {τ : Type} : ThreadLabel τ → Bool
  | .loop l => l.quits
  | _ => false

namespace EventLoopThread

variable {τ : Type}

/-- What holds as long as the destructor alone ends the loop. -/
structure Sole (w : EventLoopThread τ) : Prop where
  inv : w.Inv
  unquit : w.owner.unquit = true → w.loop.quit_ = false ∧ w.loop.pc ≠ .left
  born : w.owner ≠ .destroyed → w.owner.handedOut = true → w.runner.early = false
  stored : w.owner = .waking → w.loop.calls 0 = .quitStored
  quits : w.owner = .joining → w.runner = .finished ∨ 0 < w.loop.quits
  dangling : ∀ fault ∈ w.faults, fault = .dangling

theorem init_sole : (init : EventLoopThread τ).Sole := by
  refine ⟨init_inv, ?_, ?_, ?_, ?_, ?_⟩
  · intro _
    exact ⟨rfl, by simp [init, LoopWorld.init]⟩
  all_goals simp [init, OwnerPc.handedOut]

/-- While the loop goes on, the thread that has published it stands in front of `loop()` or inside it. -/
theorem Sole.published {w : EventLoopThread τ} (h : w.Sole) (hunquit : w.owner.unquit = true)
    (hout : w.owner.handedOut = true) : w.runner = .counting ∨ w.runner = .looping := by
  have hborn := h.born (by rintro howner; simp [howner, OwnerPc.unquit] at hunquit) hout
  have hleft := (h.unquit hunquit).2
  have hfits := h.inv.fits
  cases hrunner : w.runner with
  | counting => exact Or.inl rfl
  | looping => exact Or.inr rfl
  | unborn | constructing | publishing => simp [hrunner, RunnerPc.early] at hborn
  | clearing | destructing | finished =>
    rw [hrunner] at hfits
    exact (hleft hfits).elim

theorem Sole.pointer {w : EventLoopThread τ} (h : w.Sole) (hunquit : w.owner.unquit = true)
    (hout : w.owner.handedOut = true) : w.loop_ = true ∧ w.runner.alive = true := by
  rw [h.inv.pointer]
  obtain hrunner | hrunner := h.published hunquit hout <;> rw [hrunner] <;> exact ⟨rfl, rfl⟩

/-- The calls of thread `0` are the destructor's own. -/
theorem calledBy_of_mayStep {w : EventLoopThread τ} {l : LoopLabel τ} (hmay : w.mayStep l = true) :
    l.calledBy 0 = false := by
  cases l with
  | push thread _ | quit thread | wakeup thread =>
    simp only [mayStep, Bool.and_eq_true, decide_eq_true_eq] at hmay
    exact decide_eq_false (Nat.ne_of_gt hmay.2)
  | _ => rfl

theorem Sole.step {w w' : EventLoopThread τ} {l : ThreadLabel τ} (h : w.Sole) (hl : l.userQuits = false)
    (hstep : w.step l = some w') : w'.Sole := by
  have hinv' := h.inv.step hstep
  cases step_moves hstep with
  | startLoop howner hlatch =>
    obtain ⟨hrunner, hstarted⟩ := h.inv.unborn howner
    have hpointer := h.inv.pointer
    rw [hrunner] at hpointer
    refine ⟨hinv', fun _ => h.unquit (by rw [howner]; rfl), by simp [OwnerPc.handedOut], by simp, by simp, ?_⟩
    simpa [check, hstarted, hpointer, RunnerPc.pointed] using h.dangling
  | destroyUnstarted howner => exact ⟨hinv', by simp [OwnerPc.unquit], by simp, by simp, by simp, h.dangling⟩
  | destroy howner =>
    refine ⟨hinv', fun _ => h.unquit (by rw [howner]; rfl), fun _ _ => ?_, by simp, by simp, h.dangling⟩
    exact h.born (by simp [howner]) (by rw [howner]; rfl)
  | waited howner hreturned =>
    exact ⟨hinv', fun _ => h.unquit (by rw [howner]; rfl), by simp [OwnerPc.handedOut], by simp, by simp, h.dangling⟩
  | assertLoop howner =>
    have hrunner := h.inv.published howner
    have hset : w.loop_ = true := by
      rw [h.inv.pointer]
      obtain hrunner | hrunner := hrunner <;> rw [hrunner] <;> rfl
    refine ⟨hinv', fun _ => h.unquit (by rw [howner]; rfl), fun _ _ => ?_, by simp, by simp, ?_⟩
    · show w.runner.early = false
      obtain hrunner | hrunner := hrunner <;> rw [hrunner] <;> rfl
    · simpa [check, hset] using h.dangling
  | readLoop howner =>
    have hset : w.loop_ = true := (h.pointer (by rw [howner]; rfl) (by rw [howner]; rfl)).1
    rw [hset] at hinv' ⊢
    refine ⟨hinv', fun _ => h.unquit (by rw [howner]; rfl), fun _ _ => ?_, by simp, by simp, h.dangling⟩
    exact h.born (by simp [howner]) (by rw [howner]; rfl)
  | quit howner halive hloop =>
    have hquit := (h.unquit (by rw [howner]; rfl)).1
    refine ⟨hinv', by simp [OwnerPc.unquit], fun _ _ => ?_, fun _ => ?_, by simp, ?_⟩
    · exact h.born (by simp [howner]) (by rw [howner]; rfl)
    · cases LoopWorld.step_moves hloop
      simp
    · simpa [check, hquit] using h.dangling
  | quitGone howner hgone =>
    have halive := (h.pointer (by rw [howner]; rfl) (by rw [howner]; rfl)).2
    simp [hgone] at halive
  | wakeup howner halive hloop =>
    refine ⟨hinv', by simp [OwnerPc.unquit], fun _ _ => ?_, by simp, fun _ => Or.inr ?_, h.dangling⟩
    · exact h.born (by simp [howner]) (by rw [howner]; rfl)
    · have hstored := h.stored howner
      cases LoopWorld.step_moves hloop with
      | wakeupPushed hcall => simp [hstored] at hcall
      | wakeupQuit hcall => exact Nat.succ_pos _
  | wakeupGone howner hgone =>
    have hborn : w.runner.early = false := h.born (by simp [howner]) (by rw [howner]; rfl)
    refine ⟨hinv', by simp [OwnerPc.unquit], fun _ _ => hborn, by simp, fun _ => Or.inl ?_, ?_⟩
    · show w.runner = .finished
      cases hrunner : w.runner <;> simp [hrunner, RunnerPc.alive, RunnerPc.early] at hgone hborn ⊢
    · intro fault hfault
      obtain hfault | hfault := List.mem_append.mp hfault
      · exact h.dangling fault hfault
      · exact List.mem_singleton.mp hfault
  | join howner hrunner => exact ⟨hinv', by simp [OwnerPc.unquit], by simp, by simp, by simp, h.dangling⟩
  | construct hrunner =>
    refine ⟨hinv', h.unquit, fun hnot hout => ?_, h.stored, fun (howner : w.owner = .joining) => ?_, h.dangling⟩
    · have hborn := h.born hnot hout
      simp [hrunner, RunnerPc.early] at hborn
    · have hborn := h.born (by simp [howner]) (by rw [howner]; rfl)
      simp [hrunner, RunnerPc.early] at hborn
  | publish hrunner hloop hlatch =>
    cases LoopWorld.step_moves hloop
    refine ⟨hinv', fun hunquit => ⟨(h.unquit hunquit).1, by simp⟩, fun _ _ => rfl, h.stored,
      fun (howner : w.owner = .joining) => ?_, h.dangling⟩
    have hborn := h.born (by simp [howner]) (by rw [howner]; rfl)
    simp [hrunner, RunnerPc.early] at hborn
  | enter hrunner hcounted hloop =>
    cases LoopWorld.step_moves hloop
    refine ⟨hinv', fun hunquit => ⟨(h.unquit hunquit).1, by simp⟩, fun _ _ => rfl, h.stored,
      fun howner => ?_, h.dangling⟩
    exact Or.inr ((h.quits howner).resolve_left (by simp [hrunner]))
  | leave hrunner _ | clear hrunner | destruct hrunner =>
    refine ⟨hinv', h.unquit, fun _ _ => rfl, h.stored, fun howner => ?_, h.dangling⟩
    exact Or.inr ((h.quits howner).resolve_left (by simp [hrunner]))
  | latch _ _ hlatch => exact ⟨hinv', h.unquit, h.born, h.stored, h.quits, h.dangling⟩
  | loop hmay hloop =>
    refine ⟨hinv', fun hunquit => ?_, h.born, fun howner => ?_, fun howner => ?_, h.dangling⟩
    · exact LoopWorld.step_unquit hloop hl (h.unquit hunquit).1 (h.unquit hunquit).2
    · exact (LoopWorld.step_calls hloop (calledBy_of_mayStep hmay)).trans (h.stored howner)
    · exact (h.quits howner).imp_right fun hpos => Nat.lt_of_lt_of_le hpos (LoopWorld.step_quits_le hloop)

/-- The destructor's `quit()` stores its flag after `loop()` has reset it. -/
def QuitTimely (w : EventLoopThread τ) (l : ThreadLabel τ) : Prop :=
  l = .owner → w.owner = .quitting → w.loop.BeforeReset = false

/-- The thread does not destroy its loop between the two halves of the destructor's `quit()`. -/
def LoopOutlivesQuit (w : EventLoopThread τ) (l : ThreadLabel τ) : Prop :=
  l = .runner → w.runner = .destructing → w.owner ≠ .waking

instance decidableQuitTimely (w : EventLoopThread τ) (l : ThreadLabel τ) [DecidableEq τ] : Decidable (QuitTimely w l) :=
  inferInstanceAs (Decidable (_ → _ → _))

instance decidableLoopOutlivesQuit (w : EventLoopThread τ) (l : ThreadLabel τ) [DecidableEq τ] :
    Decidable (LoopOutlivesQuit w l) :=
  inferInstanceAs (Decidable (_ → _ → _))

theorem quitInv_step {w w' : EventLoopThread τ} {l : ThreadLabel τ} (hquit : w.loop.QuitInv)
    (hl : l.userQuits = false) (htimely : QuitTimely w l) (hstep : w.step l = some w') : w'.loop.QuitInv := by
  cases step_moves hstep with
  | quit howner _ hloop => exact hquit.step (fun _ => htimely rfl howner) hloop
  | wakeup _ _ hloop => exact hquit.step (by simp [LoopWorld.QuitTimely]) hloop
  | publish _ hloop _ => exact hquit.step (by simp [LoopWorld.QuitTimely]) hloop
  | enter _ _ hloop => exact hquit.step (by simp [LoopWorld.QuitTimely]) hloop
  | loop hmay hloop =>
    refine hquit.step ?_ hloop
    intro hmatch
    split at hmatch
    · cases hl
    · cases hmatch
  | _ => exact hquit

/-- Steps of the loop in its thread, seen from outside. -/
theorem exec_loop {w : EventLoopThread τ} (hrunner : w.runner = .looping) {labels : List (LoopLabel τ)}
    (hown : ∀ l ∈ labels, l.own = true) {loop : LoopWorld τ}
    (hloop : Run.exec LoopWorld.step w.loop labels = some loop) :
    Run.exec step w (labels.map .loop) = some { w with loop } := by
  induction labels generalizing w with
  | nil =>
    cases hloop
    rfl
  | cons l labels ih =>
    obtain ⟨v, hv, hloop⟩ := Run.exec_cons_eq_some.mp hloop
    have hmay : w.mayStep l = true := by
      have hl := hown l (by simp)
      cases l <;> simp [mayStep, hrunner] <;> cases hl
    have hstep : w.step (.loop l) = some { w with loop := v } := by simp [step, hmay, hv]
    rw [List.map_cons, Run.exec_cons_eq_some]
    exact ⟨_, hstep, ih (w := { w with loop := v }) hrunner (fun m hm => hown m (by simp [hm])) hloop⟩

/-- The destructor can return without anybody else ending the loop. -/
def Returns (w : EventLoopThread τ) : Prop :=
  Run.CanReach step (fun l => l.userQuits = false) w fun w' => w'.owner = .destroyed

/-- Once the loop has been left, the thread finishes and the destructor returns. -/
theorem returns_of_left {w : EventLoopThread τ} (howner : w.owner = .joining) (hfits : w.runner.Fits w.loop.pc)
    (hleft : w.loop.pc = .left) : w.Returns := by
  have hreturns (runners : Nat) (h : Run.Reaches step w (List.replicate runners .runner ++ [.owner])
      fun w' => w'.owner = .destroyed) : w.Returns := by
    obtain ⟨w', hrun, hdestroyed⟩ := h.exists
    refine ⟨_, w', ?_, hrun, hdestroyed⟩
    intro l hl
    obtain hl | hl := List.mem_append.mp hl
    · rw [List.eq_of_mem_replicate hl]
      rfl
    · rw [List.mem_singleton.mp hl]
      rfl
  cases hrunner : w.runner with
  | unborn | constructing | publishing | counting =>
    rw [hrunner] at hfits
    simp [RunnerPc.Fits, hleft] at hfits
  | looping => exact hreturns 3 (by
      simp [Run.Reaches, Run.exec, List.replicate, step, runnerStep, ownerStep, hrunner, hleft, howner])
  | clearing => exact hreturns 2 (by
      simp [Run.Reaches, Run.exec, List.replicate, step, runnerStep, ownerStep, hrunner, howner])
  | destructing => exact hreturns 1 (by
      simp [Run.Reaches, Run.exec, List.replicate, step, runnerStep, ownerStep, hrunner, howner])
  | finished => exact hreturns 0 (by simp [Run.Reaches, Run.exec, step, ownerStep, hrunner, howner])

/-- A thread that has been told to leave its running loop finishes, and the destructor returns. -/
theorem returns_of_quit {w : EventLoopThread τ} (h : w.Sole) (hquit : w.loop.QuitInv) (howner : w.owner = .joining) :
    w.Returns := by
  have hfits := h.inv.fits
  by_cases hleft : w.loop.pc = .left
  · exact returns_of_left howner hfits hleft
  · have hquits : 0 < w.loop.quits := by
      refine (h.quits howner).resolve_left fun hrunner => hleft ?_
      rw [hrunner] at hfits
      exact hfits
    obtain ⟨hpast, hset⟩ := hquit.kept (Or.inl hquits)
    have hrunner : w.runner = .looping := by
      cases hrunner : w.runner with
      | looping => rfl
      | unborn | constructing | publishing | counting =>
        rw [hrunner] at hfits
        simp [LoopWorld.BeforeReset, show w.loop.pc = _ from hfits] at hpast
      | clearing | destructing | finished =>
        rw [hrunner] at hfits
        exact (hleft hfits).elim
    obtain ⟨labels, loop, hown, hloop, hgone⟩ := LoopWorld.leaves_of_quit hset hpast (hquit.awake hquits)
    have hgoes : Run.CanReach step (fun l => l.userQuits = false) w fun w' => w' = { w with loop } := by
      refine ⟨labels.map .loop, _, ?_, exec_loop hrunner hown hloop, rfl⟩
      intro l hl
      obtain ⟨m, hm, rfl⟩ := List.mem_map.mp hl
      have hm := hown m hm
      cases m <;> first | rfl | cases hm
    refine hgoes.trans ?_
    rintro w' rfl
    refine returns_of_left howner ?_ hgone
    rw [hrunner, hgone]
    exact ⟨by simp, by simp⟩

/-- The destructor has ended a loop that did not listen, and waits for its thread. -/
def Lost (w : EventLoopThread τ) : Prop := (w.owner = .waking ∨ w.owner = .joining) ∧ w.loop.Deaf

theorem Lost.step {w w' : EventLoopThread τ} {l : ThreadLabel τ} (hlost : w.Lost) (hfits : w.runner.Fits w.loop.pc)
    (hl : l.userQuits = false) (hstep : w.step l = some w') : w'.Lost := by
  obtain ⟨howner, hdeaf⟩ := hlost
  cases step_moves hstep with
  | wakeup _ _ hloop => exact ⟨Or.inr rfl, hdeaf.step rfl hloop⟩
  | wakeupGone _ _ => exact ⟨Or.inr rfl, hdeaf⟩
  | join _ hrunner =>
    rw [hrunner] at hfits
    exact (hdeaf.2 hfits).elim
  | publish _ hloop _ => exact ⟨howner, hdeaf.step rfl hloop⟩
  | enter _ _ hloop => exact ⟨howner, hdeaf.step rfl hloop⟩
  | loop _ hloop => exact ⟨howner, hdeaf.step hl hloop⟩
  | construct _ | leave _ _ | clear _ | destruct _ | latch _ _ _ => exact ⟨howner, hdeaf⟩
  | startLoop hother | destroyUnstarted hother | destroy hother | waited hother | assertLoop hother | readLoop hother
  | quit hother | quitGone hother => simp [hother] at howner

theorem lost_of_untimely {w w' : EventLoopThread τ} {l : ThreadLabel τ} (h : w.Sole) (huntimely : ¬QuitTimely w l)
    (hstep : w.step l = some w') : w'.Lost := by
  simp only [QuitTimely, Classical.not_imp, Bool.not_eq_false] at huntimely
  obtain ⟨rfl, howner, hbefore⟩ := huntimely
  have hleft := (h.unquit (by rw [howner]; rfl)).2
  cases step_moves hstep with
  | quit _ _ hloop =>
    cases LoopWorld.step_moves hloop
    exact ⟨Or.inl rfl, Or.inl hbefore, hleft⟩
  | quitGone _ _ => exact ⟨Or.inl rfl, Or.inl hbefore, hleft⟩
  | waited hother | assertLoop hother | readLoop hother | wakeup hother | wakeupGone hother | join hother =>
    simp [hother] at howner

/-- While nobody else ends the loop, the destructor can return if and only if its `quit()` stored the flag after
`loop()` had reset it. Otherwise it waits in `join()` for ever, whatever happens. -/
theorem destructor_returns_iff {w : EventLoopThread τ} {labels : List (ThreadLabel τ)}
    (husers : ∀ l ∈ labels, l.userQuits = false) (hrun : Run.exec step init labels = some w)
    (howner : w.owner = .joining) : w.Returns ↔ Run.Along step QuitTimely init labels := by
  constructor
  · rintro ⟨later, w', hlater, hrest, hdestroyed⟩
    have hall : Run.Along step QuitTimely init (labels ++ later) := by
      refine Run.Along.of_not_trapped (D := fun _ l => l.userQuits = false) (T := Lost)
        (fun _ _ _ h hl hstep => h.step hl hstep) (fun _ _ _ h hl hstep => lost_of_untimely h hl hstep)
        (fun _ _ _ h hlost hl hstep => hlost.step h.inv.fits hl hstep) init_sole (.of_labels ?_)
        (Run.exec_append_eq_some.mpr ⟨w, hrun, hrest⟩) ?_
      · exact List.forall_mem_append.mpr ⟨husers, hlater⟩
      · rintro ⟨hwaking | hjoining, _⟩
        · simp [hdestroyed] at hwaking
        · simp [hdestroyed] at hjoining
    exact (hall.append hrun).1
  · intro htimely
    have hboth : w.Sole ∧ w.loop.QuitInv := by
      refine Run.exec_invariant (I := fun v => v.Sole ∧ v.loop.QuitInv)
        (C := fun w l => l.userQuits = false ∧ QuitTimely w l) ?_ ⟨init_sole, LoopWorld.init_quitInv⟩
        ((Run.Along.of_labels husers).and htimely) hrun
      rintro v l v' ⟨hsole, hquit⟩ ⟨hl, htimely⟩ hstep
      exact ⟨hsole.step hl hstep, quitInv_step hquit hl htimely hstep⟩
    exact returns_of_quit hboth.1 hboth.2 howner

/-- The thread is already polling when the destructor ends its loop. -/
theorem destructor_returns_iff_polling : ∃ w : EventLoopThread Nat,
    Run.exec step init [.startLoop, .runner, .runner, .latch (.counter ()), .latch (.counter ()), .latch (.counter ()),
      .latch (.counter ()), .latch (.counter ()), .latch (.waiter ()), .latch (.waiter ()), .latch (.waiter ()),
      .owner, .owner, .runner, .loop .reset, .loop .test, .destroy, .owner, .owner, .owner] = some w ∧
    w.owner = .joining ∧ w.Returns := by
  apply Run.Reaches.exists_of (p := fun w => w.owner = .joining)
  · decide
  · intro w hrun howner
    exact ⟨howner, (destructor_returns_iff (by decide) hrun howner).mpr (by decide)⟩

/-- The only fault is a wakeup written to a loop that is gone. -/
theorem step_faults {w w' : EventLoopThread τ} {l : ThreadLabel τ} (h : w.Sole) (hstep : w.step l = some w') :
    w'.faults = w.faults ∨ w.owner = .waking ∧ w.runner.alive = false ∧ w'.faults = w.faults ++ [.dangling] := by
  cases step_moves hstep with
  | startLoop howner _ =>
    obtain ⟨hrunner, hstarted⟩ := h.inv.unborn howner
    have hpointer := h.inv.pointer
    rw [hrunner] at hpointer
    exact Or.inl (by simp [check, hstarted, hpointer, RunnerPc.pointed])
  | assertLoop howner =>
    have hset : w.loop_ = true := by
      rw [h.inv.pointer]
      obtain hrunner | hrunner := h.inv.published howner <;> rw [hrunner] <;> rfl
    exact Or.inl (by simp [check, hset])
  | quit howner _ _ => exact Or.inl (by simp [check, (h.unquit (by rw [howner]; rfl)).1])
  | quitGone howner hgone =>
    have halive := (h.pointer (by rw [howner]; rfl) (by rw [howner]; rfl)).2
    simp [hgone] at halive
  | wakeupGone howner hgone => exact Or.inr ⟨howner, hgone, rfl⟩
  | _ => exact Or.inl rfl

/-- The destructor is about to write, or has written, to a loop that is gone. -/
def Doomed (w : EventLoopThread τ) : Prop := w.owner = .waking ∧ w.runner = .finished ∨ w.faults ≠ []

theorem Doomed.step {w w' : EventLoopThread τ} {l : ThreadLabel τ} (hdoomed : w.Doomed) (h : w.Sole)
    (hstep : w.step l = some w') : w'.Doomed := by
  obtain ⟨howner, hrunner⟩ | hfaults := hdoomed
  · cases step_moves hstep with
    | wakeup _ halive _ => simp [hrunner, RunnerPc.alive] at halive
    | wakeupGone _ _ => exact Or.inr (by simp)
    | latch _ _ _ | loop _ _ => exact Or.inl ⟨howner, hrunner⟩
    | startLoop hother | destroyUnstarted hother | destroy hother | waited hother | assertLoop hother
    | readLoop hother | quit hother | quitGone hother | join hother => simp [howner] at hother
    | construct hother | publish hother | enter hother | leave hother | clear hother | destruct hother =>
      simp [hrunner] at hother
  · refine Or.inr ?_
    obtain heq | ⟨_, _, heq⟩ := step_faults h hstep
    · rw [heq]
      exact hfaults
    · simp [heq]

/-- What holds as long as the loop outlives the destructor's `quit()`. -/
structure Unharmed (w : EventLoopThread τ) : Prop where
  sole : w.Sole
  faults : w.faults = []
  waking : w.owner = .waking → w.runner ≠ .finished

theorem Unharmed.step {w w' : EventLoopThread τ} {l : ThreadLabel τ} (h : w.Unharmed) (hl : l.userQuits = false)
    (houtlives : LoopOutlivesQuit w l) (hstep : w.step l = some w') : w'.Unharmed := by
  refine ⟨h.sole.step hl hstep, ?_, ?_⟩
  · obtain heq | ⟨howner, hgone, _⟩ := step_faults h.sole hstep
    · rw [heq, h.faults]
    · have hborn := h.sole.born (by simp [howner]) (by rw [howner]; rfl)
      have hrunner := h.waking howner
      cases hpc : w.runner <;> simp [hpc, RunnerPc.alive, RunnerPc.early] at hgone hborn hrunner
  · have hwaking := h.waking
    cases step_moves hstep with
    | quit _ halive _ =>
      rintro - (hrunner : w.runner = .finished)
      simp [hrunner, RunnerPc.alive] at halive
    | quitGone howner hgone =>
      have halive := (h.sole.pointer (by rw [howner]; rfl) (by rw [howner]; rfl)).2
      simp [hgone] at halive
    | destruct hrunner =>
      intro howner
      exact (houtlives rfl hrunner howner).elim
    | readLoop _ =>
      intro howner
      cases hset : w.loop_ <;> simp [hset] at howner
    | latch _ _ _ | loop _ _ => exact hwaking
    | _ => simp

/-- While nobody else ends the loop, the destructor's `quit()` finds the loop alive, and its wakeup is written to a
loop that is gone if and only if the thread has destroyed it between the two. -/
theorem destructor_unharmed_iff {w : EventLoopThread τ} {labels : List (ThreadLabel τ)}
    (husers : ∀ l ∈ labels, l.userQuits = false) (hrun : Run.exec step init labels = some w)
    (howner : w.owner = .joining ∨ w.owner = .destroyed) :
    w.faults = [] ↔ Run.Along step LoopOutlivesQuit init labels := by
  constructor
  · intro hfaults
    refine Run.Along.of_not_trapped (D := fun _ l => l.userQuits = false) (T := Doomed)
      (fun _ _ _ h hl hstep => h.step hl hstep) (fun v l v' h hl hstep => ?_)
      (fun _ _ _ h hdoomed _ hstep => hdoomed.step h hstep) init_sole (.of_labels husers) hrun ?_
    · simp only [LoopOutlivesQuit, Classical.not_imp, not_not] at hl
      obtain ⟨rfl, hrunner, hwaking⟩ := hl
      cases step_moves hstep <;> simp_all [Doomed]
    · rintro (⟨hwaking, _⟩ | hnonempty)
      · simp [hwaking] at howner
      · exact hnonempty hfaults
  · intro houtlives
    have hend : w.Unharmed :=
      Run.exec_invariant (C := fun w l => l.userQuits = false ∧ LoopOutlivesQuit w l)
        (fun _ _ _ h hl hstep => h.step hl.1 hl.2 hstep) ⟨init_sole, rfl, by simp [init]⟩
        ((Run.Along.of_labels husers).and houtlives) hrun
    exact hend.faults

/-- The thread sees the flag, leaves and destroys its loop before the destructor gets to the wakeup. -/
theorem destructor_unharmed_iff_race : ∃ labels, ∃ w : EventLoopThread Nat, Run.exec step init labels = some w ∧
    w.owner = .joining ∧ w.faults = [.dangling] ∧ ¬Run.Along step LoopOutlivesQuit init labels := by
  refine ⟨[.startLoop, .runner, .runner, .latch (.counter ()), .latch (.counter ()), .latch (.counter ()),
    .latch (.counter ()), .latch (.counter ()), .latch (.waiter ()), .latch (.waiter ()), .latch (.waiter ()),
    .owner, .owner, .runner, .loop .reset, .destroy, .owner, .owner, .loop .test, .runner, .runner, .runner,
    .owner], ?_⟩
  apply Run.Reaches.exists_of (p := fun w => w.owner = .joining ∧ w.faults = [.dangling])
  · decide
  · rintro w hrun ⟨howner, hfaults⟩
    refine ⟨howner, hfaults, fun houtlives => ?_⟩
    have hnone := (destructor_unharmed_iff (by decide) hrun (Or.inl howner)).mpr houtlives
    simp [hfaults] at hnone

end EventLoopThread

end mudong.ev
