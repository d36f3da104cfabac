import Mudong.EventLoopThread

namespace mudong.ev.EventLoopThread

variable {τ : Type}

/-- Everything a step can do, with the conditions under which it does it. -/
inductive Moves (w : EventLoopThread τ) : ThreadLabel τ → EventLoopThread τ → Prop where
  | startLoop {latch_ : CountDownLatch Unit Unit} (howner : w.owner = .constructed)
      (hlatch : w.latch_.step (.wait ()) = some latch_) :
      Moves w .startLoop
        { (w.check .startLoopStarted (w.started_ = false)).check .startLoopEarly (w.loop_ = false) with
          started_ := true, latch_, owner := .starting, runner := .constructing }
  | destroyUnstarted (howner : w.owner = .constructed) : Moves w .destroy { w with owner := .destroyed }
  | destroy (howner : w.owner = .started) : Moves w .destroy { w with owner := .destroying }
  | waited (howner : w.owner = .starting) (hreturned : w.latch_.waiters () = .returned) :
      Moves w .owner { w with owner := .asserting }
  | assertLoop (howner : w.owner = .asserting) :
      Moves w .owner { w.check .startLoopNull (w.loop_ = true) with owner := .started }
  | readLoop (howner : w.owner = .destroying) :
      Moves w .owner { w with owner := if w.loop_ then .quitting else .joining }
  | quit {loop : LoopWorld τ} (howner : w.owner = .quitting) (halive : w.runner.alive = true)
      (hloop : w.loop.step (.quit 0) = some loop) :
      Moves w .owner { w.check .quit (w.loop.quit_ = false) with loop, owner := .waking }
  | quitGone (howner : w.owner = .quitting) (hgone : w.runner.alive = false) :
      Moves w .owner
        { w with owner := .waking, faults := (w.check .quit (w.loop.quit_ = false)).faults ++ [.dangling] }
  | wakeup {loop : LoopWorld τ} (howner : w.owner = .waking) (halive : w.runner.alive = true)
      (hloop : w.loop.step (.wakeup 0) = some loop) : Moves w .owner { w with loop, owner := .joining }
  | wakeupGone (howner : w.owner = .waking) (hgone : w.runner.alive = false) :
      Moves w .owner { w with owner := .joining, faults := w.faults ++ [.dangling] }
  | join (howner : w.owner = .joining) (hrunner : w.runner = .finished) :
      Moves w .owner { w with owner := .destroyed }
  | construct (hrunner : w.runner = .constructing) : Moves w .runner { w with runner := .publishing }
  | publish {loop : LoopWorld τ} {latch_ : CountDownLatch Unit Unit} (hrunner : w.runner = .publishing)
      (hloop : w.loop.step .publish = some loop) (hlatch : w.latch_.step (.count ()) = some latch_) :
      Moves w .runner { w with loop_ := true, loop, latch_, runner := .counting }
  | enter {loop : LoopWorld τ} (hrunner : w.runner = .counting) (hcounted : w.latch_.counters () = .idle)
      (hloop : w.loop.step .enter = some loop) : Moves w .runner { w with loop, runner := .looping }
  | leave (hrunner : w.runner = .looping) (hleft : w.loop.pc = .left) :
      Moves w .runner { w with runner := .clearing }
  | clear (hrunner : w.runner = .clearing) : Moves w .runner { w with loop_ := false, runner := .destructing }
  | destruct (hrunner : w.runner = .destructing) : Moves w .runner { w with runner := .finished }
  | latch {l : LatchLabel Unit Unit} {latch_ : CountDownLatch Unit Unit} (hwait : l ≠ .wait ()) (hcount : l ≠ .count ())
      (hlatch : w.latch_.step l = some latch_) : Moves w (.latch l) { w with latch_ }
  | loop {l : LoopLabel τ} {loop : LoopWorld τ} (hmay : w.mayStep l = true) (hloop : w.loop.step l = some loop) :
      Moves w (.loop l) { w with loop }

theorem ownerStep_moves {w w' : EventLoopThread τ} (hstep : w.ownerStep = some w') : Moves w .owner w' := by
  cases howner : w.owner <;> simp only [ownerStep, howner, reduceCtorEq] at hstep
  case starting =>
    rw [Option.ite_none_right_eq_some, Option.some.injEq] at hstep
    obtain ⟨hreturned, rfl⟩ := hstep
    exact .waited howner hreturned
  case asserting =>
    cases hstep
    exact .assertLoop howner
  case destroying =>
    cases hstep
    exact .readLoop howner
  case quitting =>
    unfold quitStep at hstep
    split at hstep
    · rename_i halive
      obtain ⟨loop, hloop, rfl⟩ := Option.map_eq_some_iff.mp hstep
      exact .quit howner halive hloop
    · rename_i hgone
      cases hstep
      exact .quitGone howner (Bool.eq_false_iff.mpr hgone)
  case waking =>
    unfold quitStep at hstep
    split at hstep
    · rename_i halive
      obtain ⟨loop, hloop, rfl⟩ := Option.map_eq_some_iff.mp hstep
      exact .wakeup howner halive hloop
    · rename_i hgone
      cases hstep
      exact .wakeupGone howner (Bool.eq_false_iff.mpr hgone)
  case joining =>
    rw [Option.ite_none_right_eq_some, Option.some.injEq] at hstep
    obtain ⟨hrunner, rfl⟩ := hstep
    exact .join howner hrunner

theorem runnerStep_moves {w w' : EventLoopThread τ} (hstep : w.runnerStep = some w') : Moves w .runner w' := by
  cases hrunner : w.runner <;> simp only [runnerStep, hrunner, reduceCtorEq] at hstep
  case constructing =>
    cases hstep
    exact .construct hrunner
  case publishing =>
    obtain ⟨loop, hloop, hrest⟩ := Option.bind_eq_some_iff.mp hstep
    obtain ⟨latch_, hlatch, rfl⟩ := Option.map_eq_some_iff.mp hrest
    exact .publish hrunner hloop hlatch
  case counting =>
    split at hstep
    · rename_i hcounted
      obtain ⟨loop, hloop, rfl⟩ := Option.map_eq_some_iff.mp hstep
      exact .enter hrunner hcounted hloop
    · cases hstep
  case looping =>
    rw [Option.ite_none_right_eq_some, Option.some.injEq] at hstep
    obtain ⟨hleft, rfl⟩ := hstep
    refine .leave hrunner ?_
    split at hleft
    · assumption
    · cases hleft
  case clearing =>
    cases hstep
    exact .clear hrunner
  case destructing =>
    cases hstep
    exact .destruct hrunner

theorem step_moves {w w' : EventLoopThread τ} {l : ThreadLabel τ} (hstep : w.step l = some w') : Moves w l w' := by
  cases l with
  | startLoop =>
    rw [step, Option.ite_none_right_eq_some] at hstep
    obtain ⟨howner, hstep⟩ := hstep
    obtain ⟨latch_, hlatch, rfl⟩ := Option.map_eq_some_iff.mp hstep
    exact .startLoop howner hlatch
  | destroy =>
    cases howner : w.owner <;> simp only [step, howner, reduceCtorEq] at hstep
    · cases hstep
      exact .destroyUnstarted howner
    · cases hstep
      exact .destroy howner
  | owner => exact ownerStep_moves hstep
  | runner => exact runnerStep_moves hstep
  | latch l =>
    cases l with
    | wait i => simp [step] at hstep
    | count k => simp [step] at hstep
    | waiter i | spurious i | counter i =>
      obtain ⟨latch_, hlatch, rfl⟩ := Option.map_eq_some_iff.mp hstep
      exact .latch (by simp) (by simp) hlatch
  | loop l =>
    rw [step, Option.ite_none_right_eq_some] at hstep
    obtain ⟨hmay, hstep⟩ := hstep
    obtain ⟨loop, hloop, rfl⟩ := Option.map_eq_some_iff.mp hstep
    exact .loop hmay hloop

end mudong.ev.EventLoopThread
