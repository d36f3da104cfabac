import Mudong.TcpServer.Moves

namespace mudong.ev

/-- How far the thread of the base loop has come. -/
inductive Place where
  | idle
  | early
  | spawning (i : Nat)
  | starting (i : Nat)
  | running
  | destructing
  deriving DecidableEq, Repr

def BasePc.place : BasePc → Place
  | .idle => .idle
  | .initializing => .early
  | .listening => .early
  | .spawning i => .spawning i
  | .locking i => .starting i
  | .testing i => .starting i
  | .sleeping i => .starting i
  | .waiting i => .starting i
  | .woken i => .starting i
  | .unlocking i => .starting i
  | .storing i => .starting i
  | .running => .running
  | .destroying _ => .destructing
  | .quitting _ => .destructing
  | .waking _ => .destructing
  | .joining _ => .destructing
  | .destroyed => .destructing

@[simp] theorem BasePc.place_wake (pc : BasePc) : pc.wake.place = pc.place := by
  cases pc <;> rfl

/-- How the loop of a thread and its pointer stand to the place of the thread in `runInThread`. -/
def SubPc.Fits {τ : Type} (pc : LoopPc τ) (pointed : Bool) : SubPc → Prop
  | .unborn => pc = .constructed ∧ pointed = false
  | .constructing => pc = .constructed ∧ pointed = false
  | .locking => pc = .constructed ∧ pointed = false
  | .publishing => pc = .constructed ∧ pointed = false
  | .notifying => pc = .published ∧ pointed = true
  | .unlocking => pc = .published ∧ pointed = true
  | .initializing => pc = .published ∧ pointed = true
  | .listening => pc = .published ∧ pointed = true
  | .looping => (pc ≠ .constructed ∧ pc ≠ .published) ∧ pointed = true
  | .clearing => pc = .left ∧ pointed = true
  | .destructing => pc = .left ∧ pointed = false
  | .finished => pc = .left ∧ pointed = false

/-- The thread has called `threadInitCallback_`. -/
def SubPc.inited : SubPc → Bool
  | .listening => true
  | .looping => true
  | .clearing => true
  | .destructing => true
  | .finished => true
  | _ => false

/-- The acceptor of the thread has begun to listen. -/
def SubPc.listened : SubPc → Bool
  | .looping => true
  | .clearing => true
  | .destructing => true
  | .finished => true
  | _ => false

/-- The thread has published its loop and is done with the mutex. -/
def SubPc.released : SubPc → Bool
  | .initializing => true
  | pc => pc.inited

namespace TcpServer

variable {τ : Type}

/-- `setNumThread` is called before `start`. -/
def SetBeforeStart (w : TcpServer τ) (l : TcpServerLabel τ) : Prop := (l matches .setNumThread _) → w.started_ = false

instance decidableSetBeforeStart (w : TcpServer τ) (l : TcpServerLabel τ) : Decidable (SetBeforeStart w l) :=
  inferInstanceAs (Decidable (_ → _))

/-- What the place of the base thread says about the stored threads. -/
def AtPlace (numThreads_ stored : Nat) (started_ : Bool) : Place → Prop
  | .idle => stored = 0
  | .early => stored = 0 ∧ started_ = true
  | .spawning i => i = stored + 1 ∧ started_ = true
  | .starting i => (i = stored + 1 ∧ i < numThreads_) ∧ started_ = true
  | .running => numThreads_ ≤ stored + 1 ∧ started_ = true
  | .destructing => True

/-- The threads exist from the first one on, up to the one that is being started. -/
structure Shape (w : TcpServer τ) : Prop where
  place : AtPlace w.numThreads_ w.threads_.length w.started_ w.base.place
  threads : w.threads_ = List.range' 1 w.threads_.length
  bound : w.threads_.length = 0 ∨ w.threads_.length < w.numThreads_
  born : ∀ i, w.subs i ≠ .unborn ↔ (1 ≤ i ∧ i ≤ w.threads_.length) ∨ w.base.place = .starting i
  size : w.numThreads_ = 1 ∨ w.numThreads_ = w.eventLoops_.length
  queued : w.startQueued = true → w.started_ = true

theorem init_shape : (init : TcpServer τ).Shape := by
  refine ⟨rfl, rfl, Or.inl rfl, fun i => ?_, Or.inl rfl, ?_⟩
  · simp [init, BasePc.place]
    omega
  · simp [init]

/-- A step that neither spawns nor stores a thread, and leaves the base thread at its place. -/
theorem Shape.stay {w w' : TcpServer τ} (h : w.Shape)
    (hsame : (w'.numThreads_, w'.started_, w'.threads_, w'.startQueued) =
      (w.numThreads_, w.started_, w.threads_, w.startQueued))
    (hplace : w'.base.place = w.base.place) (hsubs : ∀ i, w'.subs i = .unborn ↔ w.subs i = .unborn)
    (hsize : w'.eventLoops_.length = w.eventLoops_.length) : w'.Shape := by
  simp only [Prod.mk.injEq] at hsame
  obtain ⟨hnum, hstarted, hthreads, hqueued⟩ := hsame
  refine ⟨?_, ?_, ?_, fun i => ?_, ?_, ?_⟩
  · rw [hnum, hstarted, hthreads, hplace]
    exact h.place
  · rw [hthreads]
    exact h.threads
  · rw [hnum, hthreads]
    exact h.bound
  · rw [hthreads, hplace, ← h.born i]
    exact not_congr (hsubs i)
  · rw [hnum, hsize]
    exact h.size
  · rw [hqueued, hstarted]
    exact h.queued

/-- The base thread moves on without spawning or storing a thread. -/
theorem Shape.move {w w' : TcpServer τ} (h : w.Shape)
    (hsame : (w'.numThreads_, w'.threads_, w'.subs, w'.eventLoops_) =
      (w.numThreads_, w.threads_, w.subs, w.eventLoops_))
    (hfrom : ∀ i, w.base.place ≠ .starting i) (hto : ∀ i, w'.base.place ≠ .starting i)
    (hplace : AtPlace w.numThreads_ w.threads_.length w'.started_ w'.base.place)
    (hqueued : w'.startQueued = true → w'.started_ = true) : w'.Shape := by
  simp only [Prod.mk.injEq] at hsame
  obtain ⟨hnum, hthreads, hsubs, hloops⟩ := hsame
  refine ⟨?_, ?_, ?_, fun i => ?_, ?_, hqueued⟩
  · rw [hnum, hthreads]
    exact hplace
  · rw [hthreads]
    exact h.threads
  · rw [hnum, hthreads]
    exact h.bound
  · have hborn := h.born i
    rw [hsubs, hthreads, hborn]
    simp [hfrom i, hto i]
  · rw [hnum, hloops]
    exact h.size

@[simp] theorem setLoop_subs (w : TcpServer τ) (i : Nat) (loop : LoopWorld τ) : (w.setLoop i loop).subs = w.subs := rfl

theorem setSub_unborn {w : TcpServer τ} {i : Nat} {pc : SubPc} (hborn : w.subs i ≠ .unborn) (hpc : pc ≠ .unborn)
    (j : Nat) : (w.setSub i pc).subs j = .unborn ↔ w.subs j = .unborn := by
  by_cases hj : j = i
  · simp [setSub, hj, hborn, hpc]
  · simp [setSub, hj]

theorem Shape.step {w w' : TcpServer τ} {l : TcpServerLabel τ} (h : w.Shape) (hset : SetBeforeStart w l)
    (hstep : w.step l = some w') : w'.Shape := by
  have hplace := h.place
  cases step_moves hstep with
  | @setNumThread n hbase =>
    have hstarted := hset rfl
    have hidle : w.base = .idle := by
      refine hbase.resolve_right fun hrunning => ?_
      rw [hrunning] at hplace
      simp [BasePc.place, AtPlace, hstarted] at hplace
    unfold setNumThread
    split
    · rename_i hpos
      rw [hidle] at hplace
      have hnone : w.threads_.length = 0 := hplace
      refine ⟨?_, h.threads, Or.inl hnone, h.born, Or.inr ?_, h.queued⟩
      · rw [hidle]
        exact hnone
      · simp
        omega
    · exact h
  | startAgain _ => exact h
  | startHere hstarted hbase =>
    rw [hbase] at hplace
    exact h.move rfl (by simp [hbase, BasePc.place]) (by simp [BasePc.place]) ⟨hplace, rfl⟩ (fun _ => rfl)
  | startThere hstarted =>
    refine ⟨?_, h.threads, h.bound, h.born, h.size, fun _ => rfl⟩
    cases hp : w.base.place <;> simp only [hp, AtPlace] at hplace ⊢ <;> simp_all
  | startInLoop hbase hqueued =>
    rw [hbase] at hplace
    exact h.move rfl (by simp [hbase, BasePc.place]) (by simp [BasePc.place]) ⟨hplace, h.queued hqueued⟩ (by simp)
  | destroy hbase =>
    refine h.move rfl ?_ (by simp [BasePc.place]) trivial h.queued
    obtain hbase | hbase := hbase <;> simp [hbase, BasePc.place]
  | initBase hbase => exact h.stay rfl (by simp [hbase, BasePc.place]) (fun _ => Iff.rfl) rfl
  | listenBase hbase =>
    rw [hbase] at hplace
    obtain ⟨hnone, hstarted⟩ := hplace
    exact h.move rfl (by simp [hbase, BasePc.place]) (by simp [BasePc.place]) ⟨by omega, hstarted⟩ h.queued
  | @spawn i hbase hmore =>
    rw [hbase] at hplace
    obtain ⟨hi, hstarted⟩ := hplace
    refine ⟨⟨⟨hi, hmore⟩, hstarted⟩, h.threads, h.bound, fun j => ?_, h.size, h.queued⟩
    have hborn := h.born j
    by_cases hj : j = i
    · simp [hj, setSub, BasePc.place]
    · have hne : i ≠ j := Ne.symm hj
      simpa [hj, hne, setSub, BasePc.place, hbase] using hborn
  | started hbase hdone =>
    rw [hbase] at hplace
    obtain ⟨hi, hstarted⟩ := hplace
    exact h.move rfl (by simp [hbase, BasePc.place]) (by simp [BasePc.place]) ⟨by omega, hstarted⟩ h.queued
  | lock hbase _ =>
    refine h.stay rfl ?_ (fun _ => Iff.rfl) rfl
    obtain hbase | hbase := hbase <;> simp [hbase, BasePc.place]
  | found hbase | notFound hbase | sleep hbase | unlock hbase | readLoop hbase | skipLoop hbase | readAll hbase
  | wakeupGone hbase | join hbase | joined hbase | spurious hbase | quit hbase | quitGone hbase | wakeup hbase =>
    exact h.stay rfl (by simp [hbase, BasePc.place]) (fun _ => Iff.rfl) rfl
  | @store i hbase =>
    rw [hbase] at hplace
    obtain ⟨⟨hi, hmore⟩, hstarted⟩ := hplace
    refine ⟨⟨by simp [hi], hstarted⟩, ?_, Or.inr ?_, fun j => ?_, h.size, h.queued⟩
    · have hthreads := h.threads
      simp only [List.length_append, List.length_singleton, List.range'_concat]
      rw [← hthreads, hi]
      simp [Nat.add_comm]
    · simp only [List.length_append, List.length_singleton]
      omega
    · have hborn := h.born j
      rw [hbase] at hborn
      simp only [BasePc.place, Place.starting.injEq, List.length_append, List.length_singleton, reduceCtorEq,
        or_false] at hborn ⊢
      rw [hborn]
      omega
  | construct hsub | leave hsub | destruct hsub =>
    exact h.stay rfl rfl (setSub_unborn (by simp [hsub]) (by simp)) rfl
  | lockSub hsub | unlockSub hsub | initSub hsub =>
    exact h.stay rfl rfl (setSub_unborn (by simp [hsub]) (by simp)) rfl
  | publish hsub _ => exact h.stay rfl rfl (setSub_unborn (by simp [hsub]) (by simp)) (by simp)
  | listenSub hsub _ => exact h.stay rfl rfl (setSub_unborn (by simp [hsub]) (by simp)) rfl
  | clear hsub => exact h.stay rfl rfl (setSub_unborn (by simp [hsub]) (by simp)) (by simp)
  | notify hsub => exact h.stay rfl (by simp) (setSub_unborn (by simp [hsub]) (by simp)) rfl
  | loop _ _ => exact h.stay rfl rfl (fun _ => Iff.rfl) rfl

/-- A thread that exists has its place in `eventLoops_`. -/
theorem Shape.index_lt {w : TcpServer τ} (h : w.Shape) {i : Nat} (hborn : w.subs i ≠ .unborn) :
    1 ≤ i ∧ i < w.numThreads_ ∧ i < w.eventLoops_.length := by
  have hrange : 1 ≤ i ∧ i < w.numThreads_ := by
    obtain hstored | hstarting := (h.born i).mp hborn
    · have hbound := h.bound
      omega
    · have hplace := h.place
      rw [hstarting] at hplace
      obtain ⟨⟨hi, hmore⟩, _⟩ := hplace
      omega
  have hsize := h.size
  omega

theorem Shape.unborn_of_spawning {w : TcpServer τ} (h : w.Shape) {i : Nat} (hbase : w.base = .spawning i) :
    w.subs i = .unborn := by
  have hplace := h.place
  rw [hbase] at hplace
  obtain ⟨hi, _⟩ := hplace
  have hborn := h.born i
  rw [hbase] at hborn
  simp only [BasePc.place, reduceCtorEq, or_false] at hborn
  by_contra hne
  have hrange := hborn.mp hne
  omega

/-- Every loop stands where its thread has brought it, and goes on until the destructor ends it. -/
structure Placed (w : TcpServer τ) : Prop where
  fits : ∀ i, (w.subs i).Fits (w.loops i).pc (w.pointed i)
  calm : w.base.place ≠ .destructing → ∀ i, (w.loops i).quit_ = false ∧ (w.loops i).pc ≠ .left

theorem init_placed : (init : TcpServer τ).Placed := by
  refine ⟨fun i => ⟨rfl, rfl⟩, fun _ i => ⟨rfl, ?_⟩⟩
  simp [init, LoopWorld.init]

/-- The base thread moves. -/
theorem Placed.move {w w' : TcpServer τ} (h : w.Placed)
    (hsame : (w'.subs, w'.loops, w'.eventLoops_) = (w.subs, w.loops, w.eventLoops_))
    (hplace : w'.base.place ≠ .destructing → w.base.place ≠ .destructing) : w'.Placed := by
  simp only [Prod.mk.injEq] at hsame
  obtain ⟨hsubs, hloops, hpointers⟩ := hsame
  refine ⟨fun i => ?_, fun hnot i => ?_⟩
  · rw [pointed, hsubs, hloops, hpointers]
    exact h.fits i
  · rw [hloops]
    exact h.calm (hplace hnot) i

/-- One of the threads moves, and perhaps its loop and its pointer with it. -/
theorem Placed.move_sub {w w' : TcpServer τ} (h : w.Placed) {i : Nat} {pc : SubPc}
    (hsubs : w'.subs = Function.update w.subs i pc) (hplace : w'.base.place = w.base.place)
    (hothers : ∀ j, j ≠ i → w'.loops j = w.loops j ∧ w'.pointed j = w.pointed j)
    (hfits : pc.Fits (w'.loops i).pc (w'.pointed i))
    (hcalm : (w.loops i).quit_ = false ∧ (w.loops i).pc ≠ .left →
      (w'.loops i).quit_ = false ∧ (w'.loops i).pc ≠ .left) : w'.Placed := by
  refine ⟨fun j => ?_, fun hnot j => ?_⟩
  · rw [hsubs]
    by_cases hj : j = i
    · rw [hj, Function.update_self]
      exact hfits
    · obtain ⟨hloop, hpointed⟩ := hothers j hj
      rw [Function.update_of_ne hj, hloop, hpointed]
      exact h.fits j
  · rw [hplace] at hnot
    by_cases hj : j = i
    · rw [hj]
      exact hcalm (h.calm hnot i)
    · rw [(hothers j hj).1]
      exact h.calm hnot j

/-- One of the loops moves, without its thread. -/
theorem Placed.move_loop {w w' : TcpServer τ} (h : w.Placed) {i : Nat} {loop : LoopWorld τ}
    (hloops : w'.loops = Function.update w.loops i loop)
    (hsame : (w'.subs, w'.eventLoops_) = (w.subs, w.eventLoops_)) (hfits : (w.subs i).Fits loop.pc (w.pointed i))
    (hcalm : w'.base.place ≠ .destructing → w.base.place ≠ .destructing ∧
      ((w.loops i).quit_ = false ∧ (w.loops i).pc ≠ .left → loop.quit_ = false ∧ loop.pc ≠ .left)) : w'.Placed := by
  simp only [Prod.mk.injEq] at hsame
  obtain ⟨hsubs, hpointers⟩ := hsame
  refine ⟨fun j => ?_, fun hnot j => ?_⟩
  · rw [pointed, hsubs, hpointers, hloops]
    by_cases hj : j = i
    · rw [hj, Function.update_self]
      exact hfits
    · rw [Function.update_of_ne hj]
      exact h.fits j
  · obtain ⟨hplace, hkeeps⟩ := hcalm hnot
    rw [hloops]
    by_cases hj : j = i
    · rw [hj, Function.update_self]
      exact hkeeps (h.calm hplace i)
    · rw [Function.update_of_ne hj]
      exact h.calm hplace j

theorem getD_set {pointers : List Bool} {i : Nat} (hi : i < pointers.length) (b : Bool) (j : Nat) :
    (pointers.set i b).getD j false = if j = i then b else pointers.getD j false := by
  by_cases hj : j = i
  · simp [hj, hi]
  · have hne : i ≠ j := Ne.symm hj
    simp [hj, hne, List.getD]

theorem getD_resize {pointers : List Bool} (hnull : ∀ i, pointers.getD i false = false) (n k i : Nat) :
    (pointers.take n ++ List.replicate k false).getD i false = false := by
  have hi := hnull i
  simp only [List.getD, List.getElem?_append, List.getElem?_take, List.getElem?_replicate] at hi ⊢
  split
  · split
    · exact hi
    · rfl
  · split <;> rfl

theorem fits_step {w : TcpServer τ} {i : Nat} {l : LoopLabel τ} {loop : LoopWorld τ}
    (hfits : (w.subs i).Fits (w.loops i).pc (w.pointed i)) (hmay : w.mayStep i l = true)
    (hloop : (w.loops i).step l = some loop) : (w.subs i).Fits loop.pc (w.pointed i) := by
  have hlooping {pc : LoopPc τ} (hsub : w.subs i = .looping) (hpc : pc ≠ .constructed ∧ pc ≠ .published) :
      (w.subs i).Fits pc (w.pointed i) := by
    rw [hsub] at hfits ⊢
    exact ⟨hpc, hfits.2⟩
  cases LoopWorld.step_moves hloop with
  | publish _ | enter _ | quitInLoop _ | quit _ _ => cases hmay
  | queueInLoop _ | push _ _ | wakeupPushed _ | wakeupQuit _ => exact hfits
  | _ => exact hlooping (by simpa [mayStep] using hmay) (by simp)

theorem quits_of_mayStep {w : TcpServer τ} {i : Nat} {l : LoopLabel τ} (hmay : w.mayStep i l = true) :
    l.quits = false := by
  cases l <;> first | rfl | cases hmay

theorem Placed.step {w w' : TcpServer τ} {l : TcpServerLabel τ} (h : w.Placed) (hshape : w.Shape)
    (hset : SetBeforeStart w l) (hstep : w.step l = some w') : w'.Placed := by
  cases step_moves hstep with
  | @setNumThread n hbase =>
    have hstarted := hset rfl
    have hunborn (i : Nat) : w.subs i = .unborn := by
      have hplace := hshape.place
      have hborn := hshape.born i
      obtain hbase | hbase := hbase
      · rw [hbase] at hplace hborn
        by_contra hne
        have hnone : w.threads_.length = 0 := hplace
        simp only [BasePc.place, reduceCtorEq, or_false] at hborn
        have hrange := hborn.mp hne
        omega
      · rw [hbase] at hplace
        simp [BasePc.place, AtPlace, hstarted] at hplace
    have hnull (i : Nat) : w.pointed i = false := by
      have hfits := h.fits i
      rw [hunborn i] at hfits
      exact hfits.2
    unfold setNumThread
    split
    · refine ⟨fun i => ?_, h.calm⟩
      have hfits := h.fits i
      rw [hunborn i] at hfits
      show (w.subs i).Fits (w.loops i).pc _
      rw [hunborn i]
      exact ⟨hfits.1, getD_resize hnull _ _ i⟩
    · exact h
  | startAgain _ => exact h
  | startThere _ => exact h.move rfl (fun h => h)
  | destroy _ => exact h.move rfl (by simp [BasePc.place])
  | startHere _ hbase | startInLoop hbase _ | initBase hbase | listenBase hbase | started hbase _ | found hbase _
  | notFound hbase _ | sleep hbase | unlock hbase | store hbase | readLoop hbase _ _ | skipLoop hbase _ _
  | readAll hbase _ | quitGone hbase _ | wakeupGone hbase _ | join hbase _ | joined hbase | spurious hbase =>
    exact h.move rfl (by simp [hbase, BasePc.place])
  | lock hbase _ =>
    refine h.move rfl ?_
    obtain hbase | hbase := hbase <;> simp [hbase, BasePc.place]
  | @spawn i hbase hmore =>
    have hunborn := hshape.unborn_of_spawning hbase
    have hfits := h.fits i
    rw [hunborn] at hfits
    refine ⟨fun j => ?_, fun _ => h.calm (by simp [hbase, BasePc.place])⟩
    show (Function.update w.subs i .constructing j).Fits (w.loops j).pc (w.pointed j)
    by_cases hj : j = i
    · rw [hj, Function.update_self]
      exact hfits
    · rw [Function.update_of_ne hj]
      exact h.fits j
  | @quit i loop hbase halive hloop =>
    have hfits : (w.subs i).Fits loop.pc (w.pointed i) := by
      cases LoopWorld.step_moves hloop
      exact h.fits i
    exact h.move_loop rfl rfl hfits (by simp [BasePc.place])
  | @wakeup i loop hbase halive hloop =>
    have hfits : (w.subs i).Fits loop.pc (w.pointed i) := by
      cases LoopWorld.step_moves hloop <;> exact h.fits i
    exact h.move_loop rfl rfl hfits (by simp [BasePc.place])
  | @construct i hsub | @lockSub i hsub _ | @unlockSub i hsub | @initSub i hsub | @destruct i hsub =>
    have hfits := h.fits i
    rw [hsub] at hfits
    exact h.move_sub rfl rfl (fun _ _ => ⟨rfl, rfl⟩) hfits (fun h => h)
  | @notify i hsub =>
    have hfits := h.fits i
    rw [hsub] at hfits
    exact h.move_sub rfl (by simp) (fun _ _ => ⟨rfl, rfl⟩) hfits (fun h => h)
  | @leave i hsub hleft =>
    have hfits := h.fits i
    rw [hsub] at hfits
    exact h.move_sub rfl rfl (fun _ _ => ⟨rfl, rfl⟩) ⟨hleft, hfits.2⟩ (fun h => h)
  | @publish i loop hsub hloop =>
    have hindex := (hshape.index_lt (i := i) (by simp [hsub])).2.2
    cases LoopWorld.step_moves hloop
    refine h.move_sub (i := i) rfl rfl (fun j hj => ⟨?_, ?_⟩) ⟨?_, ?_⟩ (fun hcalm => ?_)
    · simp [setLoop, setSub, hj]
    · exact (getD_set hindex true j).trans (if_neg hj)
    · simp [setLoop, setSub]
    · exact (getD_set hindex true i).trans (if_pos rfl)
    · simpa [setLoop, setSub] using hcalm.1
  | @listenSub i loop hsub hloop =>
    have hfits := h.fits i
    rw [hsub] at hfits
    cases LoopWorld.step_moves hloop
    refine h.move_sub (i := i) rfl rfl (fun j hj => ⟨?_, rfl⟩) ⟨⟨?_, ?_⟩, hfits.2⟩ (fun hcalm => ?_)
    · simp [setLoop, setSub, hj]
    · simp [setLoop, setSub]
    · simp [setLoop, setSub]
    · simpa [setLoop, setSub] using hcalm.1
  | @clear i hsub =>
    have hindex := (hshape.index_lt (i := i) (by simp [hsub])).2.2
    have hfits := h.fits i
    rw [hsub] at hfits
    refine h.move_sub (i := i) rfl rfl (fun j hj => ⟨rfl, ?_⟩) ⟨hfits.1, ?_⟩ (fun h => h)
    · exact (getD_set hindex false j).trans (if_neg hj)
    · exact (getD_set hindex false i).trans (if_pos rfl)
  | @loop i l loop hmay hloop =>
    refine h.move_loop rfl rfl (fits_step (h.fits i) hmay hloop) fun hnot => ⟨hnot, fun hcalm => ?_⟩
    exact LoopWorld.step_unquit hloop (quits_of_mayStep hmay) hcalm.1 hcalm.2

end TcpServer

end mudong.ev
