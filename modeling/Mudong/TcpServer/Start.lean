import Mudong.TcpServer.Mutex

namespace mudong.ev

/-- What the place of the base thread says about its own entries in the logs. -/
def BasePc.Logged (inits listens : List Nat) : BasePc → Prop
  | .idle => 0 ∉ inits ∧ 0 ∉ listens
  | .initializing => 0 ∉ inits ∧ 0 ∉ listens
  | .listening => 0 ∈ inits ∧ 0 ∉ listens
  | pc => pc.place = .destructing ∨ 0 ∈ listens

theorem BasePc.Logged.congr {pc : BasePc} {inits inits' listens listens' : List Nat} (h : pc.Logged inits listens)
    (hinits : 0 ∈ inits' ↔ 0 ∈ inits) (hlistens : 0 ∈ listens' ↔ 0 ∈ listens) : pc.Logged inits' listens' := by
  cases pc <;> simpa only [BasePc.Logged, hinits, hlistens] using h

/-- The steps a thread still has to take before it is done with the mutex. -/
def SubPc.ahead : SubPc → Nat
  | .constructing => 5
  | .locking => 4
  | .publishing => 3
  | .notifying => 2
  | .unlocking => 1
  | _ => 0

namespace TcpServer

variable {τ : Type}

/-- Every thread has called `threadInitCallback_` and begun to listen at most once, in this order. -/
structure Logged (w : TcpServer τ) : Prop where
  base : w.base.Logged w.inits w.listens
  order : 0 ∈ w.listens → 0 ∈ w.inits
  inits : ∀ i, 1 ≤ i → (i ∈ w.inits ↔ (w.subs i).inited = true)
  listens : ∀ i, 1 ≤ i → (i ∈ w.listens ↔ (w.subs i).listened = true)
  initsOnce : w.inits.Nodup
  listensOnce : w.listens.Nodup

theorem init_logged : (init : TcpServer τ).Logged := by
  refine ⟨?_, ?_, ?_, ?_, ?_, ?_⟩ <;> simp [init, BasePc.Logged, SubPc.inited, SubPc.listened]

/-- The base thread moves without an entry in the logs. -/
theorem Logged.move {w w' : TcpServer τ} (h : w.Logged)
    (hsame : (w'.inits, w'.listens, w'.subs) = (w.inits, w.listens, w.subs))
    (hbase : w.base.Logged w.inits w.listens → w'.base.Logged w.inits w.listens) : w'.Logged := by
  simp only [Prod.mk.injEq] at hsame
  obtain ⟨hinits, hlistens, hsubs⟩ := hsame
  refine ⟨?_, ?_, ?_, ?_, ?_, ?_⟩
  · rw [hinits, hlistens]
    exact hbase h.base
  · rw [hinits, hlistens]
    exact h.order
  · rw [hinits, hsubs]
    exact h.inits
  · rw [hlistens, hsubs]
    exact h.listens
  · rw [hinits]
    exact h.initsOnce
  · rw [hlistens]
    exact h.listensOnce

theorem nodup_snoc {log : List Nat} (hlog : log.Nodup) {i : Nat} (hi : i ∉ log) : (log ++ [i]).Nodup := by
  rw [← List.concat_eq_append]
  exact hlog.concat hi

/-- An entry of one of the threads. -/
theorem mem_snoc_iff {log : List Nat} {subs : Nat → SubPc} {entered : SubPc → Bool} {i : Nat} {pc : SubPc}
    (hlog : ∀ j, 1 ≤ j → (j ∈ log ↔ entered (subs j) = true)) (hpc : entered pc = true) (j : Nat) (hj : 1 ≤ j) :
    j ∈ log ++ [i] ↔ entered (Function.update subs i pc j) = true := by
  by_cases hji : j = i
  · simp [hji, hpc]
  · simp [hji, hlog j hj]

theorem entered_iff {log : List Nat} {subs : Nat → SubPc} {entered : SubPc → Bool} {i : Nat} {pc : SubPc}
    (hlog : ∀ j, 1 ≤ j → (j ∈ log ↔ entered (subs j) = true)) (hpc : entered pc = entered (subs i)) (j : Nat)
    (hj : 1 ≤ j) : j ∈ log ↔ entered (Function.update subs i pc j) = true := by
  by_cases hji : j = i
  · rw [hji, Function.update_self, hpc]
    exact hlog i (hji ▸ hj)
  · rw [Function.update_of_ne hji]
    exact hlog j hj

/-- One of the threads moves without an entry in the logs. -/
theorem Logged.move_sub {w w' : TcpServer τ} (h : w.Logged) {i : Nat} {pc : SubPc}
    (hsubs : w'.subs = Function.update w.subs i pc)
    (hsame : (w'.inits, w'.listens) = (w.inits, w.listens))
    (hbase : w.base.Logged w.inits w.listens → w'.base.Logged w.inits w.listens)
    (hpc : pc.inited = (w.subs i).inited ∧ pc.listened = (w.subs i).listened) : w'.Logged := by
  simp only [Prod.mk.injEq] at hsame
  obtain ⟨hinits, hlistens⟩ := hsame
  refine ⟨?_, ?_, ?_, ?_, ?_, ?_⟩
  · rw [hinits, hlistens]
    exact hbase h.base
  · rw [hinits, hlistens]
    exact h.order
  · rw [hinits, hsubs]
    exact entered_iff h.inits hpc.1
  · rw [hlistens, hsubs]
    exact entered_iff h.listens hpc.2
  · rw [hinits]
    exact h.initsOnce
  · rw [hlistens]
    exact h.listensOnce

theorem Logged.step {w w' : TcpServer τ} {l : TcpServerLabel τ} (h : w.Logged) (hshape : w.Shape)
    (hstep : w.step l = some w') : w'.Logged := by
  have hbase' := h.base
  cases step_moves hstep with
  | @setNumThread n _ =>
    unfold setNumThread
    split
    · exact h.move rfl (fun h => h)
    · exact h
  | startAgain _ => exact h
  | startThere _ => exact h.move rfl (fun h => h)
  | startHere _ hbase | startInLoop hbase _ =>
    rw [hbase] at hbase'
    exact h.move rfl (fun _ => hbase')
  | destroy _ | readLoop _ _ _ | skipLoop _ _ _ | readAll _ _ | quit _ _ _ | quitGone _ _ | wakeup _ _ _
  | wakeupGone _ _ | join _ _ | joined _ => exact h.move rfl (fun _ => Or.inl rfl)
  | initBase hbase =>
    rw [hbase] at hbase'
    obtain ⟨hfirst, hquiet⟩ := hbase'
    refine ⟨⟨by simp, hquiet⟩, by simp, fun i hi => ?_, h.listens, nodup_snoc h.initsOnce hfirst, h.listensOnce⟩
    have hne : i ≠ 0 := by omega
    simpa [hne] using h.inits i hi
  | listenBase hbase =>
    rw [hbase] at hbase'
    obtain ⟨hinited, hquiet⟩ := hbase'
    refine ⟨Or.inr (by simp), fun _ => hinited, h.inits, fun i hi => ?_, h.initsOnce, nodup_snoc h.listensOnce hquiet⟩
    have hne : i ≠ 0 := by omega
    simpa [hne] using h.listens i hi
  | started hbase _ | found hbase _ | notFound hbase _ | sleep hbase | unlock hbase | store hbase | spurious hbase =>
    rw [hbase] at hbase'
    exact h.move rfl (fun _ => Or.inr (by simpa [BasePc.Logged, BasePc.place] using hbase'))
  | lock hbase _ =>
    refine h.move rfl (fun _ => Or.inr ?_)
    obtain hbase | hbase := hbase <;> simpa [hbase, BasePc.Logged, BasePc.place] using hbase'
  | @spawn i hbase _ =>
    rw [hbase] at hbase'
    have hunborn := hshape.unborn_of_spawning hbase
    have hpc : SubPc.constructing.inited = (w.subs i).inited ∧ SubPc.constructing.listened = (w.subs i).listened := by
      simp [hunborn, SubPc.inited, SubPc.listened]
    exact h.move_sub rfl rfl (fun _ => Or.inr (by simpa [BasePc.Logged, BasePc.place] using hbase')) hpc
  | construct hsub | lockSub hsub _ | publish hsub _ | unlockSub hsub | leave hsub _ | clear hsub | destruct hsub =>
    exact h.move_sub rfl rfl (fun h => h) (by simp [hsub, SubPc.inited, SubPc.listened])
  | notify hsub =>
    refine h.move_sub rfl rfl (fun h => ?_) (by simp [hsub, SubPc.inited, SubPc.listened])
    cases hbase : w.base <;> rw [hbase] at h <;> exact h
  | @initSub i hsub =>
    have hpos := (hshape.index_lt (i := i) (by simp [hsub])).1
    have hne : 0 ≠ i := by omega
    have hnew : i ∉ w.inits := by simp [h.inits i hpos, hsub, SubPc.inited]
    refine ⟨hbase'.congr (by simp [hne]) Iff.rfl, fun hzero => by simp [h.order hzero], mem_snoc_iff h.inits rfl,
      entered_iff h.listens (by simp [hsub, SubPc.listened]), nodup_snoc h.initsOnce hnew, h.listensOnce⟩
  | @listenSub i loop hsub hloop =>
    have hpos := (hshape.index_lt (i := i) (by simp [hsub])).1
    have hne : 0 ≠ i := by omega
    have hnew : i ∉ w.listens := by simp [h.listens i hpos, hsub, SubPc.listened]
    refine ⟨hbase'.congr Iff.rfl (by simp [hne]), fun hzero => h.order (by simpa [hne] using hzero),
      entered_iff h.inits (by simp [hsub, SubPc.inited]), mem_snoc_iff h.listens rfl, h.initsOnce,
      nodup_snoc h.listensOnce hnew⟩
  | loop _ _ => exact h.move rfl (fun h => h)

structure Inv (w : TcpServer τ) : Prop where
  shape : w.Shape
  placed : w.Placed
  guarded : w.Guarded
  logged : w.Logged

theorem init_inv : (init : TcpServer τ).Inv := ⟨init_shape, init_placed, init_guarded, init_logged⟩

theorem Inv.step {w w' : TcpServer τ} {l : TcpServerLabel τ} (h : w.Inv) (hset : SetBeforeStart w l)
    (hstep : w.step l = some w') : w'.Inv :=
  ⟨h.shape.step hset hstep, h.placed.step h.shape hset hstep, h.guarded.step h.shape h.placed hstep,
    h.logged.step h.shape hstep⟩

theorem run_inv {w : TcpServer τ} {labels : List (TcpServerLabel τ)} (hset : Run.Along step SetBeforeStart init labels)
    (hrun : Run.exec step init labels = some w) : w.Inv :=
  Run.exec_invariant (fun _ _ _ h hset hstep => h.step hset hstep) init_inv hset hrun

/-- A thread that is done with the mutex has a running loop, until the destructor ends it. -/
theorem Inv.pointed_of_released {w : TcpServer τ} (h : w.Inv) (hplace : w.base.place ≠ .destructing) {i : Nat}
    (hreleased : (w.subs i).released = true) : w.pointed i = true ∧ (w.loops i).pc ≠ .constructed := by
  have hfits := h.placed.fits i
  have hleft := (h.placed.calm hplace i).2
  cases hsub : w.subs i with
  | initializing | listening =>
    rw [hsub] at hfits
    exact ⟨hfits.2, by simp [hfits.1]⟩
  | looping =>
    rw [hsub] at hfits
    exact ⟨hfits.2, hfits.1.1⟩
  | clearing | destructing | finished =>
    rw [hsub] at hfits
    exact (hleft hfits.1).elim
  | unborn | constructing | locking | publishing | notifying | unlocking =>
    simp [hsub, SubPc.released, SubPc.inited] at hreleased

/-- However often and from wherever `start` is called, each thread is set up once: it calls `threadInitCallback_` with
its number and then begins to listen. When `startInLoop` has returned, every loop has been published, is still running,
and its thread has been stored for the destructor. -/
theorem start_brings_up_every_loop {w : TcpServer τ} {labels : List (TcpServerLabel τ)}
    (hset : Run.Along step SetBeforeStart init labels) (hrun : Run.exec step init labels = some w) :
    (w.inits.Nodup ∧ w.listens.Nodup ∧ (∀ i ∈ w.listens, i ∈ w.inits) ∧ ∀ i ∈ w.inits, i = 0 ∨ i < w.numThreads_) ∧
      (w.base = .running → 0 ∈ w.listens ∧ w.threads_ = List.range' 1 (w.numThreads_ - 1) ∧
        ∀ i, 1 ≤ i → i < w.numThreads_ →
          w.pointed i = true ∧ (w.loops i).pc ≠ .constructed ∧ (w.loops i).pc ≠ .left) := by
  have h := run_inv hset hrun
  refine ⟨⟨h.logged.initsOnce, h.logged.listensOnce, fun i hi => ?_, fun i hi => ?_⟩, fun hbase => ?_⟩
  · cases i with
    | zero => exact h.logged.order hi
    | succ i =>
      rw [h.logged.listens (i + 1) (by omega)] at hi
      rw [h.logged.inits (i + 1) (by omega)]
      cases hsub : w.subs (i + 1) <;> simp [hsub, SubPc.listened] at hi <;> rfl
  · cases i with
    | zero => exact Or.inl rfl
    | succ i =>
      rw [h.logged.inits (i + 1) (by omega)] at hi
      refine Or.inr (h.shape.index_lt ?_).2.1
      intro hunborn
      simp [hunborn, SubPc.inited] at hi
  · have hplace := h.shape.place
    have hlogged := h.logged.base
    rw [hbase] at hplace hlogged
    have hcount : w.threads_.length = w.numThreads_ - 1 := by
      have hbound := h.shape.bound
      have hall := hplace.1
      omega
    refine ⟨hlogged.resolve_left (by simp [BasePc.place]), ?_, fun i hpos hlt => ?_⟩
    · rw [h.shape.threads, hcount]
    · have hreleased := h.guarded.stored i hpos (by omega)
      have hnot : w.base.place ≠ .destructing := by simp [hbase, BasePc.place]
      obtain ⟨hpointed, hpc⟩ := h.pointed_of_released hnot hreleased
      exact ⟨hpointed, hpc, (h.placed.calm hnot i).2⟩

/-- Two calls of `start`, and a base thread that has to sleep until the other loop is published. -/
theorem start_brings_up_every_loop_two : ∃ w : TcpServer Nat,
    Run.exec step init [.setNumThread 2, .start false, .start true, .startInLoop, .base, .base, .base, .base, .base,
      .base, .sub 1, .sub 1, .sub 1, .sub 1, .sub 1, .base, .base, .base, .base, .base] = some w ∧
    w.base = .running ∧ w.numThreads_ = 2 ∧
    (w.inits.Nodup ∧ w.listens.Nodup ∧ (∀ i ∈ w.listens, i ∈ w.inits) ∧ ∀ i ∈ w.inits, i = 0 ∨ i < w.numThreads_) ∧
      (w.base = .running → 0 ∈ w.listens ∧ w.threads_ = List.range' 1 (w.numThreads_ - 1) ∧
        ∀ i, 1 ≤ i → i < w.numThreads_ →
          w.pointed i = true ∧ (w.loops i).pc ≠ .constructed ∧ (w.loops i).pc ≠ .left) := by
  apply Run.Reaches.exists_of (p := fun w => w.base = .running ∧ w.numThreads_ = 2)
  · decide
  · rintro w hrun ⟨hbase, hnum⟩
    exact ⟨hbase, hnum, start_brings_up_every_loop (by decide) hrun⟩

/-- The steps of the server's own threads outside of their loops. -/
def Own : TcpServerLabel τ → Prop
  | .base => True
  | .sub _ => True
  | _ => False

theorem Own.setBeforeStart {l : TcpServerLabel τ} (hl : Own l) (w : TcpServer τ) : SetBeforeStart w l := by
  cases l with
  | setNumThread n => cases hl
  | _ => simp [SetBeforeStart]

/-- The server's own threads can bring it into a state with `p`. -/
def Gets (w : TcpServer τ) (p : TcpServer τ → Prop) : Prop := Run.CanReach step Own w fun w' => w'.Inv ∧ p w'

theorem Gets.of_step {w v : TcpServer τ} {p : TcpServer τ → Prop} {l : TcpServerLabel τ} (h : w.Inv) (hl : Own l)
    (hstep : w.step l = some v) (hv : v.Inv → v.Gets p) : w.Gets p :=
  Run.CanReach.cons (hv (h.step (hl.setBeforeStart w) hstep)) hl hstep

/-- Only the base thread and the thread that it starts use the mutex. -/
theorem Inv.mutex_owner {w : TcpServer τ} (h : w.Inv) {i : Nat} (hplace : w.base.place = .starting i)
    (houtside : w.base.inside = false) (hsub : (w.subs i).inside = false) : w.mutex_ = none := by
  cases howner : w.mutex_ with
  | none => rfl
  | some t =>
    have hinside : w.inside t = true := (h.guarded.mutex t).mpr howner
    cases t with
    | zero => simp [inside, houtside] at hinside
    | succ t =>
      have hin : (w.subs (t + 1)).inside = true := hinside
      have hborn : w.subs (t + 1) ≠ .unborn := by
        intro hunborn
        simp [hunborn, SubPc.inside] at hin
      obtain hstored | hstarting := (h.shape.born (t + 1)).mp hborn
      · have hreleased := h.guarded.stored (t + 1) hstored.1 hstored.2
        cases hpc : w.subs (t + 1) <;> simp [hpc, SubPc.inside, SubPc.released, SubPc.inited] at hin hreleased
      · rw [hplace, Place.starting.injEq] at hstarting
        rw [hstarting, hin] at hsub
        cases hsub

/-- The thread that is being started gets done with the mutex unless the base thread is inside it. -/
theorem sub_releases {n i : Nat} : ∀ {w : TcpServer τ}, SubPc.ahead (w.subs i) ≤ n → w.Inv →
    w.base.place = .starting i → w.base.inside = false →
    w.Gets fun v => (v.base.place = .starting i ∧ v.numThreads_ = w.numThreads_) ∧ v.base.inside = false ∧
      (v.subs i).released = true := by
  induction n with
  | zero =>
    intro w hahead h hplace houtside
    have hborn : w.subs i ≠ .unborn := (h.shape.born i).mpr (Or.inr hplace)
    refine .refl ⟨h, ⟨hplace, rfl⟩, houtside, ?_⟩
    cases hsub : w.subs i <;> simp [hsub, SubPc.ahead] at hahead hborn <;> rfl
  | succ n ih =>
    intro w hahead h hplace houtside
    have hborn : w.subs i ≠ .unborn := (h.shape.born i).mpr (Or.inr hplace)
    have hgoes {v : TcpServer τ} {pc : SubPc} (hstep : w.step (.sub i) = some v)
        (hsubs : v.subs = Function.update w.subs i pc) (hpc : SubPc.ahead pc ≤ n)
        (hbase : v.base.place = w.base.place ∧ v.base.inside = w.base.inside)
        (hnum : v.numThreads_ = w.numThreads_) :
        w.Gets fun v => (v.base.place = .starting i ∧ v.numThreads_ = w.numThreads_) ∧ v.base.inside = false ∧
          (v.subs i).released = true := by
      refine Gets.of_step h (l := .sub i) trivial hstep fun hv => ?_
      rw [← hnum]
      exact ih (by simpa [hsubs] using hpc) hv (hbase.1.trans hplace) (hbase.2.trans houtside)
    cases hsub : w.subs i with
    | unborn => exact (hborn hsub).elim
    | constructing =>
      rw [hsub] at hahead
      have hstep : w.step (.sub i) = some (w.setSub i .locking) := by simp [step, subStep, hsub]
      exact hgoes hstep rfl (by simp [SubPc.ahead] at hahead ⊢; omega) ⟨rfl, rfl⟩ rfl
    | locking =>
      have hfree := h.mutex_owner hplace houtside (by rw [hsub]; rfl)
      rw [hsub] at hahead
      have hstep : w.step (.sub i) = some { w.setSub i .publishing with mutex_ := some i } := by
        simp [step, subStep, hsub, hfree]
      exact hgoes hstep rfl (by simp [SubPc.ahead] at hahead ⊢; omega) ⟨rfl, rfl⟩ rfl
    | publishing =>
      have hfits := h.placed.fits i
      rw [hsub] at hfits hahead
      have hloop : (w.loops i).step .publish = some { w.loops i with pc := .published } := by
        simp [LoopWorld.step, hfits.1]
      have hstep : w.step (.sub i) =
          some { (w.setLoop i { w.loops i with pc := .published }).setSub i .notifying with
            eventLoops_ := w.eventLoops_.set i true } := by
        simp [step, subStep, hsub, hloop]
      exact hgoes hstep rfl (by simp [SubPc.ahead] at hahead ⊢; omega) ⟨rfl, rfl⟩ rfl
    | notifying =>
      rw [hsub] at hahead
      have hstep : w.step (.sub i) = some { w.setSub i .unlocking with base := w.base.wake } := by
        simp [step, subStep, hsub]
      exact hgoes hstep rfl (by simp [SubPc.ahead] at hahead ⊢; omega)
        ⟨BasePc.place_wake _, BasePc.inside_wake _⟩ rfl
    | unlocking =>
      have hstep : w.step (.sub i) = some { w.setSub i .initializing with mutex_ := none } := by
        simp [step, subStep, hsub]
      exact hgoes hstep rfl (by simp [SubPc.ahead]) ⟨rfl, rfl⟩ rfl
    | initializing | listening | looping | clearing | destructing | finished =>
      exact .refl ⟨h, ⟨hplace, rfl⟩, houtside, by rw [hsub]; rfl⟩

/-- A base thread that is inside the mutex comes out of it. -/
theorem base_comes_out {w : TcpServer τ} (h : w.Inv) {i : Nat} (hplace : w.base.place = .starting i) :
    w.Gets fun v => (v.base.place = .starting i ∧ v.numThreads_ = w.numThreads_) ∧ v.base.inside = false := by
  have hsleeps {v : TcpServer τ} (hv : v.Inv) (hbase : v.base = .sleeping i) :
      v.Gets fun u => (u.base.place = .starting i ∧ u.numThreads_ = v.numThreads_) ∧ u.base.inside = false :=
    Gets.of_step (v := { v with mutex_ := none, base := .waiting i }) hv (l := .base) trivial
      (by simp [step, baseStep, hbase]) fun hu => .refl ⟨hu, ⟨rfl, rfl⟩, rfl⟩
  have hunlocks {v : TcpServer τ} (hv : v.Inv) (hbase : v.base = .unlocking i) :
      v.Gets fun u => (u.base.place = .starting i ∧ u.numThreads_ = v.numThreads_) ∧ u.base.inside = false :=
    Gets.of_step (v := { v with mutex_ := none, base := .storing i }) hv (l := .base) trivial
      (by simp [step, baseStep, hbase]) fun hu => .refl ⟨hu, ⟨rfl, rfl⟩, rfl⟩
  cases hbase : w.base <;> simp only [hbase, BasePc.place, reduceCtorEq, Place.starting.injEq] at hplace
  all_goals subst hplace
  case testing j =>
    have hstep : w.step .base = some { w with base := if w.pointed j then .unlocking j else .sleeping j } := by
      simp [step, baseStep, hbase]
    refine Gets.of_step h (l := .base) trivial hstep fun hv => ?_
    cases hpointed : w.pointed j with
    | true => exact hunlocks (v := { w with base := .unlocking j }) (by simpa [hpointed] using hv) rfl
    | false => exact hsleeps (v := { w with base := .sleeping j }) (by simpa [hpointed] using hv) rfl
  case sleeping j => exact hsleeps h hbase
  case unlocking j => exact hunlocks h hbase
  all_goals exact .refl ⟨h, ⟨by rw [hbase]; rfl, rfl⟩, by rw [hbase]; rfl⟩

/-- Once the thread that is being started is done with the mutex, the base thread finds its loop and stores it. -/
theorem base_stores {w : TcpServer τ} (h : w.Inv) {i : Nat} (hplace : w.base.place = .starting i)
    (houtside : w.base.inside = false) (hreleased : (w.subs i).released = true) :
    w.Gets fun v => v.base = .spawning (i + 1) ∧ v.numThreads_ = w.numThreads_ := by
  have hstores {v : TcpServer τ} (hv : v.Inv) (hbase : v.base = .storing i) :
      v.Gets fun u => u.base = .spawning (i + 1) ∧ u.numThreads_ = v.numThreads_ :=
    Gets.of_step (v := { v with threads_ := v.threads_ ++ [i], base := .spawning (i + 1) }) hv (l := .base) trivial
      (by simp [step, baseStep, hbase]) fun hu => .refl ⟨hu, rfl, rfl⟩
  have hfinds {v : TcpServer τ} (hv : v.Inv) (hbase : v.base = .testing i) (hsub : (v.subs i).released = true) :
      v.Gets fun u => u.base = .spawning (i + 1) ∧ u.numThreads_ = v.numThreads_ := by
    have hpointed := (hv.pointed_of_released (by simp [hbase, BasePc.place]) hsub).1
    refine Gets.of_step (v := { v with base := .unlocking i }) hv (l := .base) trivial
      (by simp [step, baseStep, hbase, hpointed]) fun hu => ?_
    exact Gets.of_step (v := { v with mutex_ := none, base := .storing i }) hu (l := .base) trivial
      (by simp [step, baseStep]) fun hu => hstores hu rfl
  have hfree : w.mutex_ = none := by
    refine h.mutex_owner hplace houtside ?_
    cases hsub : w.subs i <;> simp [hsub, SubPc.released, SubPc.inited] at hreleased <;> rfl
  have hlocks (hstep : w.step .base = some { w with mutex_ := some 0, base := .testing i }) :
      w.Gets fun v => v.base = .spawning (i + 1) ∧ v.numThreads_ = w.numThreads_ :=
    Gets.of_step h (l := .base) trivial hstep fun hv => hfinds hv rfl hreleased
  have hfits := h.guarded.base i hplace
  cases hbase : w.base <;> simp only [hbase, BasePc.place, reduceCtorEq, Place.starting.injEq] at hplace
  all_goals subst hplace
  case locking j => exact hlocks (by simp [step, baseStep, hbase, hfree])
  case woken j => exact hlocks (by simp [step, baseStep, hbase, hfree])
  case storing j => exact hstores h hbase
  case waiting j =>
    rw [hbase] at hfits
    obtain hsub | hsub | hsub | hsub := hfits <;> simp [hsub, SubPc.released, SubPc.inited] at hreleased
  all_goals simp [hbase, BasePc.inside] at houtside

theorem starting_gets_stored {w : TcpServer τ} (h : w.Inv) {i : Nat} (hplace : w.base.place = .starting i) :
    w.Gets fun v => v.base = .spawning (i + 1) ∧ v.numThreads_ = w.numThreads_ := by
  refine (base_comes_out h hplace).trans ?_
  rintro v ⟨hv, ⟨hplace, hnum⟩, houtside⟩
  rw [← hnum]
  refine (sub_releases (Nat.le_refl _) hv hplace houtside).trans ?_
  rintro u ⟨hu, ⟨hplace, hnum⟩, houtside, hreleased⟩
  rw [← hnum]
  exact base_stores hu hplace houtside hreleased

/-- From the place where the next thread is spawned all remaining ones get started. -/
theorem spawning_gets_running {n : Nat} : ∀ {w : TcpServer τ} {i : Nat}, w.numThreads_ - i ≤ n → w.Inv →
    w.base = .spawning i → w.Gets fun v => v.base = .running := by
  induction n with
  | zero =>
    intro w i hleft h hbase
    have hdone : ¬i < w.numThreads_ := by omega
    exact Gets.of_step (v := { w with base := .running }) h (l := .base) trivial
      (by simp [step, baseStep, hbase, hdone]) fun hv => .refl ⟨hv, rfl⟩
  | succ n ih =>
    intro w i hleft h hbase
    by_cases hmore : i < w.numThreads_
    · refine Gets.of_step (v := { w.setSub i .constructing with base := .locking i }) h (l := .base) trivial
        (by simp [step, baseStep, hbase, hmore]) fun hv => ?_
      refine (starting_gets_stored (i := i) hv rfl).trans ?_
      rintro u ⟨hu, hbase, hnum⟩
      refine ih ?_ hu hbase
      have hsame : u.numThreads_ = w.numThreads_ := hnum
      omega
    · exact Gets.of_step (v := { w with base := .running }) h (l := .base) trivial
        (by simp [step, baseStep, hbase, hmore]) fun hv => .refl ⟨hv, rfl⟩

/-- `startInLoop` cannot get stuck: from wherever it stands, the base thread and the threads it has spawned bring it
to its end by their own steps, whatever happened before. -/
theorem start_completes {w : TcpServer τ} {labels : List (TcpServerLabel τ)}
    (hset : Run.Along step SetBeforeStart init labels) (hrun : Run.exec step init labels = some w)
    (hstarting : w.base.place = .early ∨ (∃ i, w.base.place = .spawning i) ∨ ∃ i, w.base.place = .starting i) :
    Run.CanReach step Own w fun w' => w'.base = .running := by
  have hgets : w.Gets fun v => v.base = .running := by
    have h := run_inv hset hrun
    have hlisten {v : TcpServer τ} (hv : v.Inv) (hbase : v.base = .listening) : v.Gets fun u => u.base = .running :=
      Gets.of_step (v := { v with listens := v.listens ++ [0], base := .spawning 1 }) hv (l := .base) trivial
        (by simp [step, baseStep, hbase]) fun hu => spawning_gets_running (Nat.le_refl _) hu rfl
    obtain hplace | ⟨i, hplace⟩ | ⟨i, hplace⟩ := hstarting
    · cases hbase : w.base <;> simp only [hbase, BasePc.place, reduceCtorEq] at hplace
      · exact Gets.of_step (v := { w with inits := w.inits ++ [0], base := .listening }) h (l := .base) trivial
          (by simp [step, baseStep, hbase]) fun hv => hlisten hv rfl
      · exact hlisten h hbase
    · cases hbase : w.base <;> simp only [hbase, BasePc.place, reduceCtorEq] at hplace
      exact spawning_gets_running (Nat.le_refl _) h hbase
    · refine (starting_gets_stored h hplace).trans ?_
      rintro v ⟨hv, hbase, _⟩
      exact spawning_gets_running (Nat.le_refl _) hv hbase
  obtain ⟨later, w', hlater, hexec, _, hbase⟩ := hgets
  exact ⟨later, w', hlater, hexec, hbase⟩

/-- The base thread sleeps, and the thread that will wake it has not begun. -/
theorem start_completes_asleep : ∃ w : TcpServer Nat,
    Run.exec step init [.setNumThread 3, .start true, .base, .base, .base, .base, .base, .base] = some w ∧
      w.base = .waiting 1 ∧ Run.CanReach step Own w fun w' => w'.base = .running := by
  apply Run.Reaches.exists_of (p := fun w => w.base = .waiting 1)
  · decide
  · intro w hrun hbase
    exact ⟨hbase, start_completes (by decide) hrun (Or.inr (Or.inr ⟨1, by rw [hbase]; rfl⟩))⟩

end TcpServer

end mudong.ev
