import Mudong.TcpServer.Shape

namespace mudong.ev

/-- What the place of the base thread in `startInLoop` says about the thread it has spawned. -/
def BasePc.Fits (sub : SubPc) : BasePc → Prop
  | .sleeping _ => sub = .constructing ∨ sub = .locking
  | .waiting _ => sub = .constructing ∨ sub = .locking ∨ sub = .publishing ∨ sub = .notifying
  | .unlocking _ => sub.released = true
  | .storing _ => sub.released = true
  | _ => True

/-- A released thread satisfies whatever the base thread has seen of it. -/
theorem BasePc.Fits.of_released {base : BasePc} {sub pc : SubPc} (h : base.Fits sub) (hsub : sub.released = true)
    (hpc : pc.released = true) : base.Fits pc := by
  cases base with
  | sleeping i =>
    obtain rfl | rfl := h <;> cases hsub
  | waiting i =>
    obtain rfl | rfl | rfl | rfl := h <;> cases hsub
  | unlocking i | storing i => exact hpc
  | _ => trivial

@[simp] theorem BasePc.inside_wake (pc : BasePc) : pc.wake.inside = pc.inside := by
  cases pc <;> rfl

theorem BasePc.Fits.wake {base : BasePc} {sub : SubPc} (h : base.Fits sub) : base.wake.Fits sub := by
  cases base with
  | waiting i => trivial
  | _ => exact h

namespace TcpServer

variable {τ : Type}

/-- The mutex excludes, and what the base thread has seen of the thread it waits for is so. -/
structure Guarded (w : TcpServer τ) : Prop where
  mutex : Monitor.Exclusive w.mutex_ w.inside
  base : ∀ i, w.base.place = .starting i → w.base.Fits (w.subs i)
  stored : ∀ i, 1 ≤ i → i ≤ w.threads_.length → (w.subs i).released = true

theorem init_guarded : (init : TcpServer τ).Guarded := by
  refine ⟨fun t => ?_, ?_, ?_⟩
  · cases t <;> simp [init, inside, BasePc.inside, SubPc.inside]
  · simp [init, BasePc.place]
  · simp [init]
    omega

theorem inside_of_base {w w' : TcpServer τ} (hsubs : w'.subs = w.subs) :
    w'.inside = Function.update w.inside 0 w'.base.inside := by
  funext t
  cases t with
  | zero => simp [inside]
  | succ t => simp [inside, hsubs]

theorem inside_of_sub {w w' : TcpServer τ} {i : Nat} (hi : 1 ≤ i) {pc : SubPc}
    (hsubs : w'.subs = Function.update w.subs i pc) (hbase : w'.base.inside = w.base.inside) :
    w'.inside = Function.update w.inside i pc.inside := by
  funext t
  cases t with
  | zero =>
    have hne : 0 ≠ i := by omega
    simp [inside, hbase, hne]
  | succ t =>
    by_cases ht : t + 1 = i
    · simp [inside, hsubs, ← ht]
    · simp [inside, hsubs, ht]

/-- The base thread moves, and perhaps the mutex with it. -/
theorem Guarded.move {w w' : TcpServer τ} (h : w.Guarded) (hsame : (w'.subs, w'.threads_) = (w.subs, w.threads_))
    (hmutex : Monitor.Exclusive w'.mutex_ (Function.update w.inside 0 w'.base.inside))
    (hfits : ∀ i, w'.base.place = .starting i → w'.base.Fits (w.subs i)) : w'.Guarded := by
  simp only [Prod.mk.injEq] at hsame
  obtain ⟨hsubs, hthreads⟩ := hsame
  refine ⟨?_, ?_, ?_⟩
  · rw [inside_of_base hsubs]
    exact hmutex
  · rw [hsubs]
    exact hfits
  · rw [hsubs, hthreads]
    exact h.stored

/-- One of the threads moves, and perhaps the mutex with it. -/
theorem Guarded.move_sub {w w' : TcpServer τ} (h : w.Guarded) {i : Nat} (hi : 1 ≤ i) {pc : SubPc}
    (hsubs : w'.subs = Function.update w.subs i pc) (hsame : (w'.base, w'.threads_) = (w.base, w.threads_))
    (hmutex : Monitor.Exclusive w'.mutex_ (Function.update w.inside i pc.inside))
    (hfits : w.base.place = .starting i → w.base.Fits pc)
    (hreleased : (w.subs i).released = true → pc.released = true) : w'.Guarded := by
  simp only [Prod.mk.injEq] at hsame
  obtain ⟨hbase, hthreads⟩ := hsame
  refine ⟨?_, fun j hj => ?_, fun j hpos hle => ?_⟩
  · rw [inside_of_sub hi hsubs (by rw [hbase])]
    exact hmutex
  · rw [hbase] at hj ⊢
    rw [hsubs]
    by_cases hji : j = i
    · rw [hji, Function.update_self]
      exact hfits (hji ▸ hj)
    · rw [Function.update_of_ne hji]
      exact h.base j hj
  · rw [hthreads] at hle
    have hwas := h.stored j hpos hle
    rw [hsubs]
    by_cases hji : j = i
    · rw [hji, Function.update_self]
      exact hreleased (hji ▸ hwas)
    · rw [Function.update_of_ne hji]
      exact hwas

theorem inside_pos (w : TcpServer τ) {i : Nat} (hi : 1 ≤ i) : w.inside i = (w.subs i).inside := by
  obtain ⟨i, rfl⟩ : ∃ k, i = k + 1 := ⟨i - 1, by omega⟩
  rfl

theorem Guarded.sub_owns {w : TcpServer τ} (h : w.Guarded) {i : Nat} (hi : 1 ≤ i)
    (hinside : (w.subs i).inside = true) : w.mutex_ = some i :=
  (h.mutex i).mp (by rw [inside_pos w hi, hinside])

theorem Guarded.base_owns {w : TcpServer τ} (h : w.Guarded) (hinside : w.base.inside = true) : w.mutex_ = some 0 :=
  (h.mutex 0).mp hinside

/-- While the base thread is inside the mutex, the thread it starts is outside. -/
theorem Guarded.starting_outside {w : TcpServer τ} (h : w.Guarded) (hshape : w.Shape) {i : Nat}
    (hplace : w.base.place = .starting i) (hinside : w.base.inside = true) :
    w.subs i ≠ .unborn ∧ (w.subs i).inside = false := by
  have hborn : w.subs i ≠ .unborn := (hshape.born i).mpr (Or.inr hplace)
  have hpos := (hshape.index_lt hborn).1
  refine ⟨hborn, Bool.eq_false_iff.mpr fun hother => ?_⟩
  have howner := h.sub_owns hpos hother
  simp only [h.base_owns hinside, Option.some.injEq] at howner
  omega

theorem Guarded.step {w w' : TcpServer τ} {l : TcpServerLabel τ} (h : w.Guarded) (hshape : w.Shape)
    (hplaced : w.Placed) (hstep : w.step l = some w') : w'.Guarded := by
  cases step_moves hstep with
  | @setNumThread n _ =>
    unfold setNumThread
    split
    · exact ⟨h.mutex, h.base, h.stored⟩
    · exact h
  | startAgain _ => exact h
  | startThere _ => exact ⟨h.mutex, h.base, h.stored⟩
  | destroy hbase =>
    refine h.move rfl (h.mutex.stay ?_) (by simp [BasePc.place])
    obtain hbase | hbase := hbase <;> simp [inside, hbase, BasePc.inside]
  | startHere _ hbase | startInLoop hbase _ | initBase hbase | listenBase hbase | started hbase _
  | readLoop hbase _ _ | skipLoop hbase _ _ | readAll hbase _ | quit hbase _ _ | quitGone hbase _ | wakeup hbase _ _
  | wakeupGone hbase _ | join hbase _ | joined hbase =>
    exact h.move rfl (h.mutex.stay (by simp [inside, hbase, BasePc.inside])) (by simp [BasePc.place])
  | spurious hbase =>
    exact h.move rfl (h.mutex.stay (by simp [inside, hbase, BasePc.inside])) (fun _ _ => trivial)
  | lock _ hfree =>
    exact h.move rfl (Monitor.Exclusive.acquire (hfree ▸ h.mutex) 0) (fun _ _ => trivial)
  | @found i hbase hpointed =>
    refine h.move rfl (h.mutex.stay (by simp [inside, hbase, BasePc.inside])) fun j hj => ?_
    obtain rfl : i = j := by simpa [BasePc.place] using hj
    obtain ⟨hborn, houtside⟩ := h.starting_outside hshape (i := i) (by rw [hbase]; rfl) (by rw [hbase]; rfl)
    have hfits := hplaced.fits i
    show (w.subs i).released = true
    cases hsub : w.subs i <;> simp_all [SubPc.Fits, SubPc.inside, SubPc.released, SubPc.inited]
  | @notFound i hbase hpointed =>
    refine h.move rfl (h.mutex.stay (by simp [inside, hbase, BasePc.inside])) fun j hj => ?_
    obtain rfl : i = j := by simpa [BasePc.place] using hj
    obtain ⟨hborn, houtside⟩ := h.starting_outside hshape (i := i) (by rw [hbase]; rfl) (by rw [hbase]; rfl)
    have hfits := hplaced.fits i
    have hleft := (hplaced.calm (by simp [hbase, BasePc.place]) i).2
    show w.subs i = .constructing ∨ w.subs i = .locking
    cases hsub : w.subs i <;> simp_all [SubPc.Fits, SubPc.inside]
  | @sleep i hbase =>
    have howner := h.base_owns (by rw [hbase]; rfl)
    refine h.move rfl (Monitor.Exclusive.release (howner ▸ h.mutex)) fun j hj => ?_
    have hfits := h.base j (by rw [hbase]; exact hj)
    rw [hbase] at hfits
    exact hfits.imp_right Or.inl
  | @unlock i hbase =>
    have howner := h.base_owns (by rw [hbase]; rfl)
    refine h.move rfl (Monitor.Exclusive.release (howner ▸ h.mutex)) fun j hj => ?_
    have hfits := h.base j (by rw [hbase]; exact hj)
    rw [hbase] at hfits
    exact hfits
  | @spawn i hbase _ =>
    have hplace := hshape.place
    rw [hbase] at hplace
    obtain ⟨hi, _⟩ := hplace
    have hunborn : w.subs i = .unborn := hshape.unborn_of_spawning hbase
    have hspawned : (w.setSub i .constructing).Guarded :=
      h.move_sub (by omega) rfl rfl
        (h.mutex.stay (by rw [inside_pos w (by omega), hunborn]; rfl))
        (by simp [hbase, BasePc.place]) (by simp [hunborn, SubPc.released, SubPc.inited])
    exact hspawned.move rfl (hspawned.mutex.stay (by simp [inside, setSub, hbase, BasePc.inside])) (fun _ _ => trivial)
  | @store i hbase =>
    have hplace := hshape.place
    rw [hbase] at hplace
    obtain ⟨⟨hi, _⟩, _⟩ := hplace
    have hreleased := h.base i (by rw [hbase]; rfl)
    rw [hbase] at hreleased
    have hmoved : Guarded { w with base := .spawning (i + 1) } :=
      h.move rfl (h.mutex.stay (by simp [inside, hbase, BasePc.inside])) (by simp [BasePc.place])
    refine ⟨hmoved.mutex, hmoved.base, fun j hpos hle => ?_⟩
    by_cases hj : j ≤ w.threads_.length
    · exact h.stored j hpos hj
    · have hji : j = i := by
        simp only [List.length_append, List.length_singleton] at hle
        omega
      rw [hji]
      exact hreleased
  | @construct i hsub =>
    have hpos := (hshape.index_lt (i := i) (by simp [hsub])).1
    refine h.move_sub hpos rfl rfl (h.mutex.stay (by rw [inside_pos w hpos, hsub]; rfl)) (fun hplace => ?_)
      (by simp [hsub, SubPc.released, SubPc.inited])
    have hfits := h.base i hplace
    rw [hsub] at hfits
    cases hbase : w.base <;> simp_all [BasePc.Fits, SubPc.released, SubPc.inited]
  | @lockSub i hsub hfree =>
    have hpos := (hshape.index_lt (i := i) (by simp [hsub])).1
    refine h.move_sub hpos rfl rfl (Monitor.Exclusive.acquire (hfree ▸ h.mutex) i) (fun hplace => ?_)
      (by simp [hsub, SubPc.released, SubPc.inited])
    have hfits := h.base i hplace
    rw [hsub] at hfits
    have houtside : w.base.inside = false := by
      refine Bool.eq_false_iff.mpr fun hinside => ?_
      simp [h.base_owns hinside] at hfree
    cases hbase : w.base <;> simp_all [BasePc.Fits, SubPc.released, SubPc.inited, BasePc.inside]
  | @publish i loop hsub hloop =>
    have hpos := (hshape.index_lt (i := i) (by simp [hsub])).1
    refine h.move_sub hpos rfl rfl (h.mutex.stay (by rw [inside_pos w hpos, hsub]; rfl)) (fun hplace => ?_)
      (by simp [hsub, SubPc.released, SubPc.inited])
    have hfits := h.base i hplace
    rw [hsub] at hfits
    cases hbase : w.base <;> simp_all [BasePc.Fits, SubPc.released, SubPc.inited]
  | @notify i hsub =>
    have hpos := (hshape.index_lt (i := i) (by simp [hsub])).1
    have hwoken : Guarded { w with base := w.base.wake } :=
      h.move rfl (h.mutex.stay (by simp [inside])) fun j hj => (h.base j (by simpa using hj)).wake
    refine hwoken.move_sub hpos rfl rfl (hwoken.mutex.stay (by rw [inside_pos _ hpos, hsub]; rfl)) (fun hplace => ?_)
      (by simp [hsub, SubPc.released, SubPc.inited])
    have hfits := hwoken.base i hplace
    simp only [hsub] at hfits
    cases hbase : w.base <;> simp_all [BasePc.Fits, BasePc.wake, SubPc.released, SubPc.inited]
  | @unlockSub i hsub =>
    have hpos := (hshape.index_lt (i := i) (by simp [hsub])).1
    have howner := h.sub_owns hpos (by rw [hsub]; rfl)
    refine h.move_sub hpos rfl rfl (Monitor.Exclusive.release (howner ▸ h.mutex)) (fun hplace => ?_) (fun _ => rfl)
    have hfits := h.base i hplace
    rw [hsub] at hfits
    cases hbase : w.base <;> simp_all [BasePc.Fits, SubPc.released, SubPc.inited]
  | @initSub i hsub | @listenSub i _ hsub _ | @leave i hsub _ | @clear i hsub | @destruct i hsub =>
    have hpos := (hshape.index_lt (i := i) (by simp [hsub])).1
    refine h.move_sub hpos rfl rfl (h.mutex.stay (by rw [inside_pos w hpos, hsub]; rfl)) (fun hplace => ?_)
      (fun _ => rfl)
    exact (h.base i hplace).of_released (by rw [hsub]; rfl) rfl
  | loop _ _ => exact ⟨h.mutex, h.base, h.stored⟩

end TcpServer

end mudong.ev
