import Mudong.TcpServer

namespace mudong.ev.TcpServer

variable {τ : Type}

/-- Everything a step can do, with the conditions under which it does it. -/
inductive Moves (w : TcpServer τ) : TcpServerLabel τ → TcpServer τ → Prop where
  | setNumThread {n : Nat} (hbase : w.base = .idle ∨ w.base = .running) :
      Moves w (.setNumThread n) (w.setNumThread n)
  | startAgain {inLoop : Bool} (hstarted : w.started_ = true) : Moves w (.start inLoop) w
  | startHere (hstarted : w.started_ = false) (hbase : w.base = .idle) :
      Moves w (.start true) { w with started_ := true, base := .initializing }
  | startThere (hstarted : w.started_ = false) :
      Moves w (.start false) { w with started_ := true, startQueued := true }
  | startInLoop (hbase : w.base = .idle) (hqueued : w.startQueued = true) :
      Moves w .startInLoop { w with startQueued := false, base := .initializing }
  | destroy (hbase : w.base = .idle ∨ w.base = .running) : Moves w .destroy { w with base := .destroying 0 }
  | initBase (hbase : w.base = .initializing) :
      Moves w .base { w with inits := w.inits ++ [0], base := .listening }
  | listenBase (hbase : w.base = .listening) :
      Moves w .base { w with listens := w.listens ++ [0], base := .spawning 1 }
  | spawn {i : Nat} (hbase : w.base = .spawning i) (hmore : i < w.numThreads_) :
      Moves w .base { w.setSub i .constructing with base := .locking i }
  | started {i : Nat} (hbase : w.base = .spawning i) (hdone : w.numThreads_ ≤ i) :
      Moves w .base { w with base := .running }
  | lock {i : Nat} (hbase : w.base = .locking i ∨ w.base = .woken i) (hfree : w.mutex_ = none) :
      Moves w .base { w with mutex_ := some 0, base := .testing i }
  | found {i : Nat} (hbase : w.base = .testing i) (hpointed : w.pointed i = true) :
      Moves w .base { w with base := .unlocking i }
  | notFound {i : Nat} (hbase : w.base = .testing i) (hpointed : w.pointed i = false) :
      Moves w .base { w with base := .sleeping i }
  | sleep {i : Nat} (hbase : w.base = .sleeping i) : Moves w .base { w with mutex_ := none, base := .waiting i }
  | unlock {i : Nat} (hbase : w.base = .unlocking i) : Moves w .base { w with mutex_ := none, base := .storing i }
  | store {i : Nat} (hbase : w.base = .storing i) :
      Moves w .base { w with threads_ := w.threads_ ++ [i], base := .spawning (i + 1) }
  | readLoop {i : Nat} (hbase : w.base = .destroying i) (hmore : i < w.eventLoops_.length)
      (hpointed : w.pointed i = true) : Moves w .base { w with base := .quitting i }
  | skipLoop {i : Nat} (hbase : w.base = .destroying i) (hmore : i < w.eventLoops_.length)
      (hpointed : w.pointed i = false) : Moves w .base { w with base := .destroying (i + 1) }
  | readAll {i : Nat} (hbase : w.base = .destroying i) (hdone : w.eventLoops_.length ≤ i) :
      Moves w .base { w with base := .joining w.threads_ }
  | quit {i : Nat} {loop : LoopWorld τ} (hbase : w.base = .quitting i) (halive : (w.subs i).alive = true)
      (hloop : (w.loops i).step (.quit 0) = some loop) :
      Moves w .base { (w.check (.quit i) ((w.loops i).quit_ = false)).setLoop i loop with base := .waking i }
  | quitGone {i : Nat} (hbase : w.base = .quitting i) (hgone : (w.subs i).alive = false) :
      Moves w .base
        { w with base := .waking i,
                 faults := (w.check (.quit i) ((w.loops i).quit_ = false)).faults ++ [.dangling i] }
  | wakeup {i : Nat} {loop : LoopWorld τ} (hbase : w.base = .waking i) (halive : (w.subs i).alive = true)
      (hloop : (w.loops i).step (.wakeup 0) = some loop) :
      Moves w .base { w.setLoop i loop with base := .destroying (i + 1) }
  | wakeupGone {i : Nat} (hbase : w.base = .waking i) (hgone : (w.subs i).alive = false) :
      Moves w .base { w with base := .destroying (i + 1), faults := w.faults ++ [.dangling i] }
  | join {i : Nat} {rest : List Nat} (hbase : w.base = .joining (i :: rest)) (hsub : w.subs i = .finished) :
      Moves w .base { w with base := .joining rest }
  | joined (hbase : w.base = .joining []) : Moves w .base { w with base := .destroyed }
  | spurious {i : Nat} (hbase : w.base = .waiting i) : Moves w .spurious { w with base := .woken i }
  | construct {i : Nat} (hsub : w.subs i = .constructing) : Moves w (.sub i) (w.setSub i .locking)
  | lockSub {i : Nat} (hsub : w.subs i = .locking) (hfree : w.mutex_ = none) :
      Moves w (.sub i) { w.setSub i .publishing with mutex_ := some i }
  | publish {i : Nat} {loop : LoopWorld τ} (hsub : w.subs i = .publishing)
      (hloop : (w.loops i).step .publish = some loop) :
      Moves w (.sub i) { (w.setLoop i loop).setSub i .notifying with eventLoops_ := w.eventLoops_.set i true }
  | notify {i : Nat} (hsub : w.subs i = .notifying) :
      Moves w (.sub i) { w.setSub i .unlocking with base := w.base.wake }
  | unlockSub {i : Nat} (hsub : w.subs i = .unlocking) :
      Moves w (.sub i) { w.setSub i .initializing with mutex_ := none }
  | initSub {i : Nat} (hsub : w.subs i = .initializing) :
      Moves w (.sub i) { w.setSub i .listening with inits := w.inits ++ [i] }
  | listenSub {i : Nat} {loop : LoopWorld τ} (hsub : w.subs i = .listening)
      (hloop : (w.loops i).step .enter = some loop) :
      Moves w (.sub i) { (w.setLoop i loop).setSub i .looping with listens := w.listens ++ [i] }
  | leave {i : Nat} (hsub : w.subs i = .looping) (hleft : (w.loops i).pc = .left) :
      Moves w (.sub i) (w.setSub i .clearing)
  | clear {i : Nat} (hsub : w.subs i = .clearing) :
      Moves w (.sub i) { w.setSub i .destructing with eventLoops_ := w.eventLoops_.set i false }
  | destruct {i : Nat} (hsub : w.subs i = .destructing) : Moves w (.sub i) (w.setSub i .finished)
  | loop {i : Nat} {l : LoopLabel τ} {loop : LoopWorld τ} (hmay : w.mayStep i l = true)
      (hloop : (w.loops i).step l = some loop) : Moves w (.loop i l) (w.setLoop i loop)

theorem baseStep_moves {w w' : TcpServer τ} (hstep : w.baseStep = some w') : Moves w .base w' := by
  unfold baseStep at hstep
  split at hstep
  case h_1 hbase =>
    cases hstep
    exact .initBase hbase
  case h_2 hbase =>
    cases hstep
    exact .listenBase hbase
  case h_3 i hbase =>
    cases hstep
    split
    · rename_i hmore
      exact .spawn hbase hmore
    · rename_i hdone
      exact .started hbase (Nat.le_of_not_lt hdone)
  case h_4 i hbase =>
    rw [Option.ite_none_right_eq_some, Option.some.injEq] at hstep
    obtain ⟨hfree, rfl⟩ := hstep
    exact .lock (Or.inl hbase) hfree
  case h_5 i hbase =>
    cases hstep
    cases hpointed : w.pointed i with
    | true => exact .found hbase hpointed
    | false => exact .notFound hbase hpointed
  case h_6 i hbase =>
    cases hstep
    exact .sleep hbase
  case h_7 i hbase =>
    rw [Option.ite_none_right_eq_some, Option.some.injEq] at hstep
    obtain ⟨hfree, rfl⟩ := hstep
    exact .lock (Or.inr hbase) hfree
  case h_8 i hbase =>
    cases hstep
    exact .unlock hbase
  case h_9 i hbase =>
    cases hstep
    exact .store hbase
  case h_10 i hbase =>
    cases hstep
    by_cases hmore : i < w.eventLoops_.length
    · rw [if_pos hmore]
      cases hpointed : w.pointed i with
      | true => exact .readLoop hbase hmore hpointed
      | false => exact .skipLoop hbase hmore hpointed
    · rw [if_neg hmore]
      exact .readAll hbase (Nat.le_of_not_lt hmore)
  case h_11 i hbase =>
    unfold quitStep at hstep
    split at hstep
    · rename_i halive
      obtain ⟨loop, hloop, rfl⟩ := Option.map_eq_some_iff.mp hstep
      exact .quit hbase halive hloop
    · rename_i hgone
      cases hstep
      exact .quitGone hbase (Bool.eq_false_iff.mpr hgone)
  case h_12 i hbase =>
    unfold quitStep at hstep
    split at hstep
    · rename_i halive
      obtain ⟨loop, hloop, rfl⟩ := Option.map_eq_some_iff.mp hstep
      exact .wakeup hbase halive hloop
    · rename_i hgone
      cases hstep
      exact .wakeupGone hbase (Bool.eq_false_iff.mpr hgone)
  case h_13 hbase =>
    cases hstep
    exact .joined hbase
  case h_14 i rest hbase =>
    rw [Option.ite_none_right_eq_some, Option.some.injEq] at hstep
    obtain ⟨hsub, rfl⟩ := hstep
    exact .join hbase hsub
  case h_15 => cases hstep

theorem subStep_moves {w w' : TcpServer τ} {i : Nat} (hstep : w.subStep i = some w') : Moves w (.sub i) w' := by
  cases hsub : w.subs i <;> simp only [subStep, hsub, reduceCtorEq] at hstep
  case constructing =>
    cases hstep
    exact .construct hsub
  case locking =>
    rw [Option.ite_none_right_eq_some, Option.some.injEq] at hstep
    obtain ⟨hfree, rfl⟩ := hstep
    exact .lockSub hsub hfree
  case publishing =>
    obtain ⟨loop, hloop, rfl⟩ := Option.map_eq_some_iff.mp hstep
    exact .publish hsub hloop
  case notifying =>
    cases hstep
    exact .notify hsub
  case unlocking =>
    cases hstep
    exact .unlockSub hsub
  case initializing =>
    cases hstep
    exact .initSub hsub
  case listening =>
    obtain ⟨loop, hloop, rfl⟩ := Option.map_eq_some_iff.mp hstep
    exact .listenSub hsub hloop
  case looping =>
    rw [Option.ite_none_right_eq_some, Option.some.injEq] at hstep
    obtain ⟨hleft, rfl⟩ := hstep
    refine .leave hsub ?_
    split at hleft
    · assumption
    · cases hleft
  case clearing =>
    cases hstep
    exact .clear hsub
  case destructing =>
    cases hstep
    exact .destruct hsub

theorem step_moves {w w' : TcpServer τ} {l : TcpServerLabel τ} (hstep : w.step l = some w') : Moves w l w' := by
  cases l with
  | setNumThread n =>
    rw [step, Option.ite_none_right_eq_some, Option.some.injEq] at hstep
    obtain ⟨hbase, rfl⟩ := hstep
    exact .setNumThread hbase
  | start inLoop =>
    simp only [step, start] at hstep
    split at hstep
    · rename_i hstarted
      cases hstep
      exact .startAgain hstarted
    · rename_i hstarted
      have hstarted := Bool.eq_false_iff.mpr hstarted
      cases inLoop with
      | true =>
        simp only [if_true, Option.ite_none_right_eq_some, Option.some.injEq] at hstep
        obtain ⟨hbase, rfl⟩ := hstep
        exact .startHere hstarted hbase
      | false =>
        cases hstep
        exact .startThere hstarted
  | startInLoop =>
    rw [step, Option.ite_none_right_eq_some, Option.some.injEq] at hstep
    obtain ⟨⟨hbase, hqueued⟩, rfl⟩ := hstep
    exact .startInLoop hbase hqueued
  | destroy =>
    rw [step, Option.ite_none_right_eq_some, Option.some.injEq] at hstep
    obtain ⟨hbase, rfl⟩ := hstep
    exact .destroy hbase
  | base => exact baseStep_moves hstep
  | spurious =>
    simp only [step] at hstep
    split at hstep
    · rename_i i hbase
      cases hstep
      exact .spurious hbase
    · cases hstep
  | sub i => exact subStep_moves hstep
  | loop i l =>
    rw [step, Option.ite_none_right_eq_some] at hstep
    obtain ⟨hmay, hstep⟩ := hstep
    obtain ⟨loop, hloop, rfl⟩ := Option.map_eq_some_iff.mp hstep
    exact .loop hmay hloop

end mudong.ev.TcpServer
