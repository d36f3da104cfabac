import Mudong.TcpServer.Start

namespace mudong.ev

/-- The destructor has not yet told loop `i` to end. -/
def BasePc.unquit (i : Nat) : BasePc → Bool
  | .destroying j => j ≤ i
  | .quitting j => j ≤ i
  | .waking j => j < i
  | .joining _ => false
  | .destroyed => false
  | _ => true

/-- The destructor's `quit()` of loop `i` has returned. -/
def BasePc.told (i : Nat) : BasePc → Bool
  | .destroying j => i < j
  | .quitting j => i < j
  | .waking j => i < j
  | .joining _ => true
  | _ => false

/-- The loop whose flag the destructor is about to store. -/
def BasePc.quits : BasePc → Option Nat
  | .quitting i => some i
  | _ => none

/-- The destructor has stored the flag of loop `i` and has not yet joined its thread. -/
def BasePc.awaits (i : Nat) : BasePc → Bool
  | .destroying j => i < j
  | .quitting j => i < j
  | .waking j => i ≤ j
  | .joining rest => i ∈ rest
  | _ => false

namespace TcpServer

variable {τ : Type}

/-- The thread has been stored for the destructor. -/
def Stored (w : TcpServer τ) (i : Nat) : Prop := 1 ≤ i ∧ i ≤ w.threads_.length

/-- What the destructor has done to each of the loops. -/
structure Ending (w : TcpServer τ) : Prop where
  inv : w.Inv
  unquit : ∀ i, w.base.unquit i = true → (w.loops i).quit_ = false ∧ (w.loops i).pc ≠ .left
  reading : ∀ i, w.base = .quitting i ∨ w.base = .waking i → w.Stored i
  stored : ∀ i, w.base = .waking i → (w.loops i).calls 0 = .quitStored
  told : ∀ i, w.Stored i → w.base.told i = true → w.subs i = .finished ∨ 0 < (w.loops i).quits
  joining : ∀ rest, w.base = .joining rest → ∀ i ∈ rest, w.Stored i

theorem Inv.ending {w : TcpServer τ} (h : w.Inv) (hplace : w.base.place ≠ .destructing) : w.Ending := by
  refine ⟨h, fun i _ => h.placed.calm hplace i, ?_, ?_, ?_, ?_⟩
  all_goals cases hbase : w.base <;> simp [hbase, BasePc.place, BasePc.told] at hplace ⊢

/-- A step that leaves the base thread where it is, and the loops as far as the destructor minds. -/
theorem Ending.stay {w w' : TcpServer τ} (h : w.Ending) (hinv : w'.Inv)
    (hsame : (w'.base, w'.threads_) = (w.base, w.threads_)) (hsubs : ∀ i, w.subs i = .finished → w'.subs i = .finished)
    (hunquit : ∀ i, (w.loops i).quit_ = false ∧ (w.loops i).pc ≠ .left →
      (w'.loops i).quit_ = false ∧ (w'.loops i).pc ≠ .left)
    (hcalls : ∀ i, (w'.loops i).calls 0 = (w.loops i).calls 0 ∧ (w.loops i).quits ≤ (w'.loops i).quits) :
    w'.Ending := by
  simp only [Prod.mk.injEq] at hsame
  obtain ⟨hbase, hthreads⟩ := hsame
  have hstored (i : Nat) : w'.Stored i ↔ w.Stored i := by simp only [Stored, hthreads]
  refine ⟨hinv, fun i hi => ?_, fun i hi => ?_, fun i hi => ?_, fun i hi htold => ?_, fun rest hrest i hi => ?_⟩
  · rw [hbase] at hi
    exact hunquit i (h.unquit i hi)
  · rw [hbase] at hi
    exact (hstored i).mpr (h.reading i hi)
  · rw [hbase] at hi
    rw [(hcalls i).1]
    exact h.stored i hi
  · rw [hbase] at htold
    exact (h.told i ((hstored i).mp hi) htold).imp (hsubs i) fun hpos => Nat.lt_of_lt_of_le hpos (hcalls i).2
  · rw [hbase] at hrest
    exact (hstored i).mpr (h.joining rest hrest i hi)

theorem Ending.stay_sub {w w' : TcpServer τ} (h : w.Ending) (hinv : w'.Inv) {i : Nat} {pc : SubPc}
    (hsame : (w'.base, w'.threads_, w'.loops) = (w.base, w.threads_, w.loops))
    (hsubs : w'.subs = Function.update w.subs i pc) (hsub : w.subs i ≠ .finished) : w'.Ending := by
  simp only [Prod.mk.injEq] at hsame
  obtain ⟨hbase, hthreads, hloops⟩ := hsame
  refine h.stay hinv (by rw [hbase, hthreads]) (fun j hj => ?_) (fun j hj => by rwa [hloops])
    fun j => by rw [hloops]; exact ⟨rfl, Nat.le_refl _⟩
  have hne : j ≠ i := by
    rintro rfl
    exact hsub hj
  rw [hsubs, Function.update_of_ne hne]
  exact hj

/-- A step of one of the loops that is not the destructor's. -/
theorem Ending.stay_loop {w w' : TcpServer τ} (h : w.Ending) (hinv : w'.Inv) {i : Nat} {l : LoopLabel τ}
    {loop : LoopWorld τ} (hloop : (w.loops i).step l = some loop) (hquits : l.quits = false)
    (hcalled : l.calledBy 0 = false) (hsame : (w'.base, w'.threads_) = (w.base, w.threads_))
    (hsubs : ∀ j, w.subs j = .finished → w'.subs j = .finished) (hloops : w'.loops = Function.update w.loops i loop) :
    w'.Ending := by
  refine h.stay hinv hsame hsubs (fun j hj => ?_) (fun j => ?_)
  · rw [hloops]
    by_cases hji : j = i
    · subst hji
      rw [Function.update_self]
      exact LoopWorld.step_unquit hloop hquits hj.1 hj.2
    · rw [Function.update_of_ne hji]
      exact hj
  · rw [hloops]
    by_cases hji : j = i
    · subst hji
      rw [Function.update_self]
      exact ⟨LoopWorld.step_calls hloop hcalled, LoopWorld.step_quits_le hloop⟩
    · rw [Function.update_of_ne hji]
      exact ⟨rfl, Nat.le_refl _⟩

theorem calledBy_of_mayStep {w : TcpServer τ} {i : Nat} {l : LoopLabel τ} (hmay : w.mayStep i l = true) :
    l.calledBy 0 = false := by
  cases l with
  | push thread _ | wakeup thread =>
    simp only [mayStep, Bool.and_eq_true, decide_eq_true_eq] at hmay
    exact decide_eq_false (Nat.ne_of_gt hmay.2)
  | quit thread => cases hmay
  | _ => rfl

/-- A stored thread whose loop goes on is alive, and its pointer is set. -/
theorem Inv.alive_of_stored {w : TcpServer τ} (h : w.Inv) {i : Nat} (hi : w.Stored i)
    (hleft : (w.loops i).pc ≠ .left) : w.pointed i = true ∧ (w.subs i).alive = true := by
  have hreleased := h.guarded.stored i hi.1 hi.2
  have hfits := h.placed.fits i
  cases hsub : w.subs i with
  | initializing | listening | looping =>
    rw [hsub] at hfits
    exact ⟨hfits.2, rfl⟩
  | clearing | destructing | finished =>
    rw [hsub] at hfits
    exact (hleft hfits.1).elim
  | unborn | constructing | locking | publishing | notifying | unlocking =>
    simp [hsub, SubPc.released, SubPc.inited] at hreleased

/-- In the destructor, the pointers that are set belong to stored threads. -/
theorem Inv.stored_of_pointed {w : TcpServer τ} (h : w.Inv) (hplace : w.base.place = .destructing) {i : Nat}
    (hpointed : w.pointed i = true) : w.Stored i := by
  have hfits := h.placed.fits i
  have hborn : w.subs i ≠ .unborn := by
    intro hunborn
    rw [hunborn] at hfits
    have hnull : w.pointed i = false := hfits.2
    simp [hpointed] at hnull
  obtain hstored | hstarting := (h.shape.born i).mp hborn
  · exact hstored
  · rw [hplace] at hstarting
    cases hstarting

theorem Inv.stored_lt {w : TcpServer τ} (h : w.Inv) {i : Nat} (hi : w.Stored i) : i < w.eventLoops_.length := by
  refine (h.shape.index_lt (i := i) fun hunborn => ?_).2.2
  have hreleased := h.guarded.stored i hi.1 hi.2
  simp [hunborn, SubPc.released, SubPc.inited] at hreleased

theorem Inv.stored_of_mem {w : TcpServer τ} (h : w.Inv) {i : Nat} (hi : i ∈ w.threads_) : w.Stored i := by
  rw [h.shape.threads, List.mem_range'_1] at hi
  exact ⟨hi.1, by omega⟩

theorem Ending.step {w w' : TcpServer τ} {l : TcpServerLabel τ} (h : w.Ending) (hset : SetBeforeStart w l)
    (hstep : w.step l = some w') : w'.Ending := by
  have hinv := h.inv.step hset hstep
  by_cases hplace : w'.base.place ≠ .destructing
  · exact hinv.ending hplace
  rw [not_not] at hplace
  cases step_moves hstep with
  | @setNumThread n hbase =>
    have hsame : (w.setNumThread n).base = w.base := by
      unfold setNumThread
      split <;> rfl
    rw [hsame] at hplace
    obtain hbase | hbase := hbase <;> simp [hbase, BasePc.place] at hplace
  | startHere _ _ | startInLoop _ _ | initBase _ | listenBase _ | spawn _ _ | started _ _ | lock _ _ | found _ _
  | notFound _ _ | sleep _ | unlock _ | store _ | spurious _ => simp [BasePc.place] at hplace
  | startAgain _ => exact h
  | startThere _ => exact h.stay hinv rfl (fun _ h => h) (fun _ h => h) (fun _ => ⟨rfl, Nat.le_refl _⟩)
  | destroy hbase =>
    have hcalm := h.inv.placed.calm (by obtain hbase | hbase := hbase <;> simp [hbase, BasePc.place])
    exact ⟨hinv, fun i _ => hcalm i, by simp, by simp, by simp [BasePc.told], by simp⟩
  | @readLoop i hbase _ hpointed =>
    have hread : w.Stored i := h.inv.stored_of_pointed (by rw [hbase]; rfl) hpointed
    refine ⟨hinv, fun j hj => h.unquit j (by rw [hbase]; exact hj), fun j hj => ?_, by simp,
      fun j hj htold => h.told j hj (by rw [hbase]; exact htold), by simp⟩
    obtain rfl : i = j := by simpa using hj
    exact hread
  | @skipLoop i hbase _ hpointed =>
    refine ⟨hinv, fun j hj => h.unquit j ?_, by simp, by simp, fun j hj htold => ?_, by simp⟩
    · simp only [BasePc.unquit, decide_eq_true_eq] at hj
      simp only [hbase, BasePc.unquit, decide_eq_true_eq]
      omega
    · by_cases hji : j = i
      · subst hji
        have hleft := (h.unquit j (by simp [hbase, BasePc.unquit])).2
        simp [(h.inv.alive_of_stored hj hleft).1] at hpointed
      · refine h.told j hj ?_
        simp only [BasePc.told, decide_eq_true_eq] at htold
        simp only [hbase, BasePc.told, decide_eq_true_eq]
        omega
  | @readAll i hbase hdone =>
    refine ⟨hinv, by simp [BasePc.unquit], by simp, by simp, fun j hj _ => h.told j hj ?_, fun rest hrest j hj => ?_⟩
    · have hlt := h.inv.stored_lt hj
      simp only [hbase, BasePc.told, decide_eq_true_eq]
      omega
    · cases hrest
      exact h.inv.stored_of_mem hj
  | @quit i loop hbase halive hloop =>
    have hothers (j : Nat) (hj : j ≠ i) : Function.update w.loops i loop j = w.loops j := Function.update_of_ne hj _ _
    refine ⟨hinv, fun j hj => ?_, fun j hj => ?_, fun j hj => ?_, fun j hj htold => ?_, by simp⟩
    · simp only [BasePc.unquit, decide_eq_true_eq] at hj
      show (Function.update w.loops i loop j).quit_ = false ∧ (Function.update w.loops i loop j).pc ≠ .left
      rw [hothers j (by omega)]
      refine h.unquit j ?_
      simp only [hbase, BasePc.unquit, decide_eq_true_eq]
      omega
    · obtain rfl : i = j := by simpa using hj
      exact h.reading i (Or.inl hbase)
    · obtain rfl : i = j := by simpa using hj
      show (Function.update w.loops i loop i).calls 0 = .quitStored
      rw [Function.update_self]
      cases LoopWorld.step_moves hloop
      simp
    · simp only [BasePc.told, decide_eq_true_eq] at htold
      show w.subs j = .finished ∨ 0 < (Function.update w.loops i loop j).quits
      rw [hothers j (by omega)]
      refine h.told j hj ?_
      simp only [hbase, BasePc.told, decide_eq_true_eq]
      omega
  | @quitGone i hbase hgone =>
    have hleft := (h.unquit i (by simp [hbase, BasePc.unquit])).2
    simp [(h.inv.alive_of_stored (h.reading i (Or.inl hbase)) hleft).2] at hgone
  | @wakeup i loop hbase halive hloop =>
    have hothers (j : Nat) (hj : j ≠ i) : Function.update w.loops i loop j = w.loops j := Function.update_of_ne hj _ _
    refine ⟨hinv, fun j hj => ?_, by simp, by simp, fun j hj htold => ?_, by simp⟩
    · simp only [BasePc.unquit, decide_eq_true_eq] at hj
      show (Function.update w.loops i loop j).quit_ = false ∧ (Function.update w.loops i loop j).pc ≠ .left
      rw [hothers j (by omega)]
      refine h.unquit j ?_
      simp only [hbase, BasePc.unquit, decide_eq_true_eq]
      omega
    · simp only [BasePc.told, decide_eq_true_eq] at htold
      show w.subs j = .finished ∨ 0 < (Function.update w.loops i loop j).quits
      by_cases hji : j = i
      · subst hji
        have hstored := h.stored j hbase
        rw [Function.update_self]
        cases LoopWorld.step_moves hloop with
        | wakeupPushed hcall => simp [hstored] at hcall
        | wakeupQuit _ => exact Or.inr (Nat.succ_pos _)
      · rw [hothers j hji]
        refine h.told j hj ?_
        simp only [hbase, BasePc.told, decide_eq_true_eq]
        omega
  | @wakeupGone i hbase hgone =>
    refine ⟨hinv, fun j hj => h.unquit j ?_, by simp, by simp, fun j hj htold => ?_, by simp⟩
    · simp only [BasePc.unquit, decide_eq_true_eq] at hj
      simp only [hbase, BasePc.unquit, decide_eq_true_eq]
      omega
    · simp only [BasePc.told, decide_eq_true_eq] at htold
      by_cases hji : j = i
      · subst hji
        have hreleased := h.inv.guarded.stored j hj.1 hj.2
        refine Or.inl ?_
        show w.subs j = .finished
        cases hsub : w.subs j <;> simp [hsub, SubPc.alive, SubPc.released, SubPc.inited] at hgone hreleased ⊢
      · refine h.told j hj ?_
        simp only [hbase, BasePc.told, decide_eq_true_eq]
        omega
  | @join i rest hbase hsub =>
    refine ⟨hinv, by simp [BasePc.unquit], by simp, by simp, fun j hj _ => h.told j hj (by rw [hbase]; rfl),
      fun rest' hrest j hj => h.joining (i :: rest) hbase j ?_⟩
    cases hrest
    exact List.mem_cons_of_mem i hj
  | joined hbase => exact ⟨hinv, by simp [BasePc.unquit], by simp, by simp, by simp [BasePc.told], by simp⟩
  | construct hsub | lockSub hsub _ | unlockSub hsub | initSub hsub | leave hsub _ | clear hsub | destruct hsub =>
    exact h.stay_sub hinv rfl rfl (by simp [hsub])
  | notify hsub =>
    have hsame : w.base.wake = w.base := by
      rw [BasePc.place_wake] at hplace
      cases hbase : w.base <;> simp [hbase, BasePc.wake, BasePc.place] at hplace ⊢
    refine h.stay_sub hinv ?_ rfl (by simp [hsub])
    rw [hsame]
    rfl
  | @publish i loop hsub hloop =>
    refine h.stay_loop hinv hloop rfl rfl rfl (fun j hj => ?_) rfl
    have hne : j ≠ i := by
      rintro rfl
      simp [hsub] at hj
    exact (Function.update_of_ne hne _ _).trans hj
  | @listenSub i loop hsub hloop =>
    refine h.stay_loop hinv hloop rfl rfl rfl (fun j hj => ?_) rfl
    have hne : j ≠ i := by
      rintro rfl
      simp [hsub] at hj
    exact (Function.update_of_ne hne _ _).trans hj
  | loop hmay hloop =>
    exact h.stay_loop hinv hloop (quits_of_mayStep hmay) (calledBy_of_mayStep hmay) rfl (fun _ h => h) rfl

theorem init_ending : (init : TcpServer τ).Ending := init_inv.ending (by simp [init, BasePc.place])

/-- The destructor's `quit()` stores a loop's flag after `loop()` has reset it. -/
def QuitTimely (w : TcpServer τ) (l : TcpServerLabel τ) : Prop :=
  (l matches .base) → ∀ i ∈ w.base.quits, (w.loops i).BeforeReset = false

instance decidableQuitTimely (w : TcpServer τ) (l : TcpServerLabel τ) : Decidable (QuitTimely w l) :=
  inferInstanceAs (Decidable (_ → _))

/-- The destructor waits, or will wait, for a thread whose loop goes on. -/
def Lost (w : TcpServer τ) : Prop := ∃ i, w.Stored i ∧ w.base.awaits i = true ∧ (w.loops i).Deaf

theorem Lost.move {w w' : TcpServer τ} {i : Nat} (hstored : w.Stored i) (hdeaf : (w.loops i).Deaf)
    (hsame : (w'.threads_, w'.loops) = (w.threads_, w.loops)) (hawaits : w'.base.awaits i = true) : w'.Lost := by
  simp only [Prod.mk.injEq] at hsame
  obtain ⟨hthreads, hloops⟩ := hsame
  refine ⟨i, ?_, hawaits, ?_⟩
  · rw [Stored, hthreads]
    exact hstored
  · rw [hloops]
    exact hdeaf

theorem Lost.move_loop {w w' : TcpServer τ} {i j : Nat} (hstored : w.Stored i) (hdeaf : (w.loops i).Deaf)
    {l : LoopLabel τ} {loop : LoopWorld τ} (hloop : (w.loops j).step l = some loop) (hl : j = i → l.quits = false)
    (hthreads : w'.threads_ = w.threads_) (hloops : w'.loops = Function.update w.loops j loop)
    (hawaits : w'.base.awaits i = true) : w'.Lost := by
  refine ⟨i, ?_, hawaits, ?_⟩
  · rw [Stored, hthreads]
    exact hstored
  · rw [hloops]
    by_cases hij : i = j
    · subst hij
      rw [Function.update_self]
      exact hdeaf.step (hl rfl) hloop
    · rw [Function.update_of_ne hij]
      exact hdeaf

theorem Lost.step {w w' : TcpServer τ} {l : TcpServerLabel τ} (hlost : w.Lost) (h : w.Ending)
    (hstep : w.step l = some w') : w'.Lost := by
  obtain ⟨i, hstored, hawaits, hdeaf⟩ := hlost
  cases step_moves hstep with
  | startAgain _ => exact ⟨i, hstored, hawaits, hdeaf⟩
  | startThere _ => exact Lost.move hstored hdeaf rfl hawaits
  | setNumThread hbase | destroy hbase | lock hbase _ =>
    obtain hbase | hbase := hbase <;> simp [hbase, BasePc.awaits] at hawaits
  | startHere _ hbase | startInLoop hbase _ | initBase hbase | listenBase hbase | spawn hbase _ | started hbase _
  | found hbase _ | notFound hbase _ | sleep hbase | unlock hbase | store hbase | spurious hbase | joined hbase =>
    simp [hbase, BasePc.awaits] at hawaits
  | readLoop hbase _ _ | skipLoop hbase _ _ | wakeupGone hbase _ | quitGone hbase _ =>
    refine Lost.move hstored hdeaf rfl ?_
    simp only [hbase, BasePc.awaits, decide_eq_true_eq] at hawaits ⊢
    omega
  | readAll hbase _ =>
    refine Lost.move hstored hdeaf rfl ?_
    rw [BasePc.awaits, decide_eq_true_eq, h.inv.shape.threads, List.mem_range'_1]
    exact ⟨hstored.1, by have := hstored.2; omega⟩
  | @quit j loop hbase _ hloop =>
    simp only [hbase, BasePc.awaits, decide_eq_true_eq] at hawaits
    refine Lost.move_loop hstored hdeaf hloop (fun hji => by omega) rfl rfl ?_
    simp only [BasePc.awaits, decide_eq_true_eq]
    omega
  | wakeup hbase _ hloop =>
    simp only [hbase, BasePc.awaits, decide_eq_true_eq] at hawaits
    refine Lost.move_loop hstored hdeaf hloop (fun _ => rfl) rfl rfl ?_
    simp only [BasePc.awaits, decide_eq_true_eq]
    omega
  | @join j rest hbase hsub =>
    refine Lost.move hstored hdeaf rfl ?_
    simp only [hbase, BasePc.awaits, decide_eq_true_eq, List.mem_cons] at hawaits ⊢
    obtain rfl | hrest := hawaits
    · have hfits := h.inv.placed.fits i
      rw [hsub] at hfits
      exact (hdeaf.2 hfits.1).elim
    · exact hrest
  | construct _ | lockSub _ _ | unlockSub _ | initSub _ | leave _ _ | clear _ | destruct _ =>
    exact Lost.move hstored hdeaf rfl hawaits
  | notify _ =>
    refine Lost.move hstored hdeaf rfl ?_
    cases hbase : w.base <;> simp [hbase, BasePc.wake, BasePc.awaits] at hawaits ⊢ <;> exact hawaits
  | publish _ hloop => exact Lost.move_loop hstored hdeaf hloop (fun _ => rfl) rfl rfl hawaits
  | listenSub _ hloop => exact Lost.move_loop hstored hdeaf hloop (fun _ => rfl) rfl rfl hawaits
  | loop hmay hloop => exact Lost.move_loop hstored hdeaf hloop (fun _ => quits_of_mayStep hmay) rfl rfl hawaits

/-- In the destructor nobody calls `setNumThread` any more. -/
theorem Lost.setBeforeStart {w w' : TcpServer τ} {l : TcpServerLabel τ} (hlost : w.Lost)
    (hstep : w.step l = some w') : SetBeforeStart w l := by
  obtain ⟨i, _, hawaits, _⟩ := hlost
  cases step_moves hstep with
  | setNumThread hbase => obtain hbase | hbase := hbase <;> simp [hbase, BasePc.awaits] at hawaits
  | _ => simp [SetBeforeStart]

theorem lost_of_untimely {w w' : TcpServer τ} {l : TcpServerLabel τ} (h : w.Ending) (huntimely : ¬QuitTimely w l)
    (hstep : w.step l = some w') : w'.Lost := by
  simp only [QuitTimely, Classical.not_imp, not_forall, Bool.not_eq_false] at huntimely
  obtain ⟨hbase, i, hi, hbefore⟩ := huntimely
  have hquitting : w.base = .quitting i := by
    cases hpc : w.base <;> simp [hpc, BasePc.quits] at hi
    rw [hi]
  obtain ⟨_, hleft⟩ := h.unquit i (by simp [hquitting, BasePc.unquit])
  have hstored := h.reading i (Or.inl hquitting)
  cases step_moves hstep with
  | @quit j loop hother _ hloop =>
    obtain rfl : i = j := by simpa [hquitting] using hother
    refine ⟨i, hstored, by simp [BasePc.awaits], ?_⟩
    show (Function.update w.loops i loop i).Deaf
    rw [Function.update_self]
    cases LoopWorld.step_moves hloop
    exact ⟨Or.inl hbefore, hleft⟩
  | quitGone hother hgone =>
    obtain rfl : i = _ := by simpa [hquitting] using hother
    simp [(h.inv.alive_of_stored hstored hleft).2] at hgone
  | lock hother _ => simp [hquitting] at hother
  | initBase hother | listenBase hother | spawn hother _ | started hother _ | found hother _ | notFound hother _
  | sleep hother | unlock hother | store hother | readLoop hother _ _ | skipLoop hother _ _ | readAll hother _
  | wakeup hother _ _ | wakeupGone hother _ | join hother _ | joined hother => simp [hquitting] at hother
  | _ => cases hbase

/-- What holds as long as every `quit()` is timely: the loops keep the flags they are given. -/
structure Timely (w : TcpServer τ) : Prop where
  ending : w.Ending
  quits : ∀ i, (w.loops i).QuitInv

theorem quitInv_update {loops : Nat → LoopWorld τ} {i : Nat} {l : LoopLabel τ} {loop : LoopWorld τ}
    (h : ∀ j, (loops j).QuitInv) (htimely : LoopWorld.QuitTimely (loops i) l) (hloop : (loops i).step l = some loop)
    (j : Nat) : (Function.update loops i loop j).QuitInv := by
  by_cases hji : j = i
  · subst hji
    rw [Function.update_self]
    exact (h j).step htimely hloop
  · rw [Function.update_of_ne hji]
    exact h j

theorem Timely.step {w w' : TcpServer τ} {l : TcpServerLabel τ} (h : w.Timely) (hset : SetBeforeStart w l)
    (htimely : QuitTimely w l) (hstep : w.step l = some w') : w'.Timely := by
  refine ⟨h.ending.step hset hstep, ?_⟩
  have hquits := h.quits
  cases step_moves hstep with
  | @setNumThread n _ =>
    unfold setNumThread
    split <;> exact hquits
  | quit hbase _ hloop =>
    refine quitInv_update hquits (fun _ => htimely rfl _ ?_) hloop
    rw [hbase]
    rfl
  | wakeup _ _ hloop => exact quitInv_update hquits (by simp [LoopWorld.QuitTimely]) hloop
  | publish _ hloop => exact quitInv_update hquits (by simp [LoopWorld.QuitTimely]) hloop
  | listenSub _ hloop => exact quitInv_update hquits (by simp [LoopWorld.QuitTimely]) hloop
  | @loop i l loop hmay hloop =>
    refine quitInv_update hquits (fun hmatch => ?_) hloop
    cases l <;> first | cases hmay | cases hmatch
  | _ => exact hquits

theorem init_timely : (init : TcpServer τ).Timely := ⟨init_ending, fun _ => LoopWorld.init_quitInv⟩

/-- The destructor can get to a state with `p`. -/
def Comes (w : TcpServer τ) (p : TcpServer τ → Prop) : Prop :=
  Run.CanReach step (fun _ => True) w fun w' => w'.Timely ∧ p w'

theorem Comes.of_step {w v : TcpServer τ} {p : TcpServer τ → Prop} {l : TcpServerLabel τ} (h : w.Timely)
    (hset : SetBeforeStart w l) (htimely : QuitTimely w l) (hstep : w.step l = some v) (hv : v.Timely → v.Comes p) :
    w.Comes p :=
  Run.CanReach.cons (hv (h.step hset htimely hstep)) trivial hstep

/-- Once its loop has been left, a thread finishes and is joined. -/
theorem joins_of_left {w : TcpServer τ} (h : w.Timely) {i : Nat} {rest : List Nat}
    (hbase : w.base = .joining (i :: rest)) (hleft : (w.loops i).pc = .left) : w.Comes fun v => v.base = .joining rest := by
  have hfinished {v : TcpServer τ} (hv : v.Timely) (hbase : v.base = .joining (i :: rest))
      (hsub : v.subs i = .finished) : v.Comes fun u => u.base = .joining rest :=
    Comes.of_step (v := { v with base := .joining rest }) hv (l := .base) (by simp [SetBeforeStart])
      (by simp [QuitTimely, hbase, BasePc.quits]) (by simp [TcpServer.step, baseStep, hbase, hsub])
      fun hu => .refl ⟨hu, rfl⟩
  have hdestructing {v : TcpServer τ} (hv : v.Timely) (hbase : v.base = .joining (i :: rest))
      (hsub : v.subs i = .destructing) : v.Comes fun u => u.base = .joining rest :=
    Comes.of_step (v := v.setSub i .finished) hv (l := .sub i) (by simp [SetBeforeStart]) (by simp [QuitTimely])
      (by simp [TcpServer.step, subStep, hsub]) fun hu => hfinished hu hbase (by simp [setSub])
  have hclearing {v : TcpServer τ} (hv : v.Timely) (hbase : v.base = .joining (i :: rest))
      (hsub : v.subs i = .clearing) : v.Comes fun u => u.base = .joining rest :=
    Comes.of_step (v := { v.setSub i .destructing with eventLoops_ := v.eventLoops_.set i false }) hv (l := .sub i)
      (by simp [SetBeforeStart]) (by simp [QuitTimely]) (by simp [TcpServer.step, subStep, hsub])
      fun hu => hdestructing hu hbase (by simp [setSub])
  have hfits := h.ending.inv.placed.fits i
  cases hsub : w.subs i with
  | unborn | constructing | locking | publishing | notifying | unlocking | initializing | listening =>
    rw [hsub] at hfits
    simp [SubPc.Fits, hleft] at hfits
  | looping =>
    exact Comes.of_step (v := w.setSub i .clearing) h (l := .sub i) (by simp [SetBeforeStart]) (by simp [QuitTimely])
      (by simp [TcpServer.step, subStep, hsub, hleft]) fun hu => hclearing hu hbase (by simp [setSub])
  | clearing => exact hclearing h hbase hsub
  | destructing => exact hdestructing h hbase hsub
  | finished => exact hfinished h hbase hsub

/-- Steps of a loop in its thread, seen from outside. -/
theorem exec_loop {w : TcpServer τ} {i : Nat} (hsub : w.subs i = .looping) {labels : List (LoopLabel τ)}
    (hown : ∀ l ∈ labels, l.own = true) {loop : LoopWorld τ}
    (hloop : Run.exec LoopWorld.step (w.loops i) labels = some loop) :
    Run.exec step w (labels.map (.loop i)) = some (w.setLoop i loop) := by
  induction labels generalizing w with
  | nil =>
    cases hloop
    simp [setLoop]
  | cons l labels ih =>
    obtain ⟨v, hv, hloop⟩ := Run.exec_cons_eq_some.mp hloop
    have hmay : w.mayStep i l = true := by
      have hl := hown l (by simp)
      cases l <;> simp [mayStep, hsub] <;> cases hl
    have hstep : w.step (.loop i l) = some (w.setLoop i v) := by simp [TcpServer.step, hmay, hv]
    rw [List.map_cons, Run.exec_cons_eq_some]
    refine ⟨_, hstep, ?_⟩
    have hrest := ih (w := w.setLoop i v) hsub (fun m hm => hown m (by simp [hm])) (by simpa [setLoop] using hloop)
    simpa [setLoop] using hrest

/-- The thread that the destructor waits for has been told to leave, so it is joined. -/
theorem joins_next {w : TcpServer τ} (h : w.Timely) {i : Nat} {rest : List Nat}
    (hbase : w.base = .joining (i :: rest)) : w.Comes fun v => v.base = .joining rest := by
  have hfits := h.ending.inv.placed.fits i
  by_cases hleft : (w.loops i).pc = .left
  · exact joins_of_left h hbase hleft
  · have hstored := h.ending.joining _ hbase i (by simp)
    have hquits : 0 < (w.loops i).quits := by
      refine (h.ending.told i hstored (by rw [hbase]; rfl)).resolve_left fun hsub => hleft ?_
      rw [hsub] at hfits
      exact hfits.1
    obtain ⟨hpast, hset⟩ := (h.quits i).kept (Or.inl hquits)
    have hlooping : w.subs i = .looping := by
      cases hsub : w.subs i with
      | looping => rfl
      | unborn | constructing | locking | publishing | notifying | unlocking | initializing | listening =>
        rw [hsub] at hfits
        simp [LoopWorld.BeforeReset, show (w.loops i).pc = _ from hfits.1] at hpast
      | clearing | destructing | finished =>
        rw [hsub] at hfits
        exact (hleft hfits.1).elim
    obtain ⟨labels, loop, hown, hloop, hgone⟩ := LoopWorld.leaves_of_quit hset hpast ((h.quits i).awake hquits)
    have hexec := exec_loop hlooping hown hloop
    have htimely : (w.setLoop i loop).Timely := by
      refine Run.exec_invariant (C := fun w l => SetBeforeStart w l ∧ QuitTimely w l)
        (fun _ _ _ h hl hstep => h.step hl.1 hl.2 hstep) h (.of_forall ?_) hexec
      intro l hl s
      obtain ⟨m, _, rfl⟩ := List.mem_map.mp hl
      exact ⟨by simp [SetBeforeStart], by simp [QuitTimely]⟩
    have hgoes : Run.CanReach step (fun _ => True) w fun w' => w' = w.setLoop i loop :=
      ⟨_, _, fun _ _ => trivial, hexec, rfl⟩
    refine hgoes.trans ?_
    rintro w' rfl
    exact joins_of_left htimely hbase (by simpa [setLoop] using hgone)

/-- The destructor can return. -/
def Returns (w : TcpServer τ) : Prop := Run.CanReach step (fun _ => True) w fun w' => w'.base = .destroyed

theorem returns_of_timely {rest : List Nat} : ∀ {w : TcpServer τ}, w.Timely → w.base = .joining rest → w.Returns := by
  induction rest with
  | nil =>
    intro w _ hbase
    have hreturned : Returns { w with base := .destroyed } := .refl rfl
    exact Run.CanReach.cons hreturned (l := .base) trivial (by simp [TcpServer.step, baseStep, hbase])
  | cons i rest ih =>
    intro w h hbase
    refine (joins_next h hbase).trans ?_
    rintro v ⟨hv, hbase⟩
    exact ih hv hbase

/-- The destructor can join all threads if and only if each of its `quit()` calls stored the flag after the thread's
`loop()` had reset it. Otherwise it waits for ever, whatever happens. -/
theorem destructor_joins_iff {w : TcpServer τ} {labels : List (TcpServerLabel τ)}
    (hset : Run.Along step SetBeforeStart init labels) (hrun : Run.exec step init labels = some w) {rest : List Nat}
    (hbase : w.base = .joining rest) : w.Returns ↔ Run.Along step QuitTimely init labels := by
  constructor
  · rintro ⟨later, w', _, hrest, hdestroyed⟩
    refine Run.Along.of_not_trapped (D := SetBeforeStart) (T := Lost) (fun _ _ _ h hl hstep => h.step hl hstep)
      (fun _ _ _ h hl hstep => lost_of_untimely h hl hstep) (fun _ _ _ h hlost _ hstep => hlost.step h hstep)
      init_ending hset hrun fun hlost => ?_
    have hending : w.Ending := Run.exec_invariant (fun _ _ _ h hl hstep => h.step hl hstep) init_ending hset hrun
    have hend : w'.Ending ∧ w'.Lost := by
      refine Run.exec_preserves (I := fun v => v.Ending ∧ v.Lost) ?_ ⟨hending, hlost⟩ hrest
      rintro v l v' ⟨hv, hlost⟩ hstep
      exact ⟨hv.step (hlost.setBeforeStart hstep) hstep, hlost.step hv hstep⟩
    obtain ⟨i, _, hawaits, _⟩ := hend.2
    simp [hdestroyed, BasePc.awaits] at hawaits
  · intro htimely
    have hend : w.Timely :=
      Run.exec_invariant (C := fun w l => SetBeforeStart w l ∧ QuitTimely w l)
        (fun _ _ _ h hl hstep => h.step hl.1 hl.2 hstep) init_timely (hset.and htimely) hrun
    exact returns_of_timely hend hbase

/-- One loop is polling and the other in front of `loop()` when they are told to end. -/
theorem destructor_joins_iff_untimely : ∃ w : TcpServer Nat,
    Run.exec step init [.setNumThread 3, .start true, .base, .base, .base, .sub 1, .sub 1, .sub 1, .sub 1, .sub 1,
      .base, .base, .base, .base, .base, .sub 2, .sub 2, .sub 2, .sub 2, .sub 2, .base, .base, .base, .base, .base,
      .sub 1, .sub 1, .loop 1 .reset, .loop 1 .test, .destroy, .base, .base, .base, .base, .base, .base, .base,
      .base] = some w ∧
    w.base = .joining [1, 2] ∧ ¬w.Returns := by
  apply Run.Reaches.exists_of (p := fun w => w.base = .joining [1, 2])
  · decide
  · intro w hrun hbase
    refine ⟨hbase, fun hreturns => ?_⟩
    exact absurd ((destructor_joins_iff (by decide) hrun hbase).mp hreturns) (by decide)

end TcpServer

end mudong.ev
