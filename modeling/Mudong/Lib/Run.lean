import Mathlib.Data.List.Basic

namespace Run

variable {σ ℓ : Type*}

/-- The state a labelled, possibly disabled step function reaches on a list of labels. The choices of the
environment are the labels, so a run is determined by its list. -/
def exec (step : σ → ℓ → Option σ) : σ → List ℓ → Option σ
  | s, [] => some s
  | s, l :: ls => (step s l).bind fun t => exec step t ls

/-- The whole list of labels can be run, and the final state satisfies `p`. -/
def Reaches (step : σ → ℓ → Option σ) (s : σ) (ls : List ℓ) (p : σ → Prop) : Prop :=
  (exec step s ls).elim False p

/-- Every step of the run meets the condition in the state before it. -/
def Along (step : σ → ℓ → Option σ) (C : σ → ℓ → Prop) : σ → List ℓ → Prop
  | _, [] => True
  | s, l :: ls => C s l ∧ ((step s l).elim True fun t => Along step C t ls)

/-- What the steps of the run emit, in order. -/
def trace {α : Type*} (step : σ → ℓ → Option σ) (emits : σ → ℓ → List α) : σ → List ℓ → List α
  | _, [] => []
  | s, l :: ls => emits s l ++ ((step s l).elim [] fun t => trace step emits t ls)

instance decidableElim {α : Type*} (o : Option α) (q : Prop) (p : α → Prop) [hq : Decidable q]
    [hp : ∀ a, Decidable (p a)] : Decidable (o.elim q p) :=
  match o with
  | none => hq
  | some a => hp a

instance Reaches.decidable (step : σ → ℓ → Option σ) (s : σ) (ls : List ℓ) (p : σ → Prop)
    [∀ t, Decidable (p t)] : Decidable (Reaches step s ls p) :=
  inferInstanceAs (Decidable ((exec step s ls).elim False p))

instance Along.decidable (step : σ → ℓ → Option σ) (C : σ → ℓ → Prop) [∀ s l, Decidable (C s l)] :
    ∀ (s : σ) (ls : List ℓ), Decidable (Along step C s ls)
  | _, [] => inferInstanceAs (Decidable True)
  | s, l :: ls =>
    have (t : σ) : Decidable (Along step C t ls) := Along.decidable step C t ls
    inferInstanceAs (Decidable (C s l ∧ ((step s l).elim True fun t => Along step C t ls)))

@[simp] theorem exec_nil (step : σ → ℓ → Option σ) (s : σ) : exec step s [] = some s := rfl

theorem exec_cons_eq_some {step : σ → ℓ → Option σ} {s u : σ} {l : ℓ} {ls : List ℓ} :
    exec step s (l :: ls) = some u ↔ ∃ t, step s l = some t ∧ exec step t ls = some u := by
  simp [exec, Option.bind_eq_some_iff]

theorem exec_append {step : σ → ℓ → Option σ} {s t : σ} {ls ms : List ℓ} (hs : exec step s ls = some t) :
    exec step s (ls ++ ms) = exec step t ms := by
  induction ls generalizing s with
  | nil =>
    cases hs
    rfl
  | cons l ls ih =>
    obtain ⟨r, hr, ht⟩ := exec_cons_eq_some.mp hs
    rw [List.cons_append, exec, hr, Option.bind_some]
    exact ih ht

theorem exec_append_eq_some {step : σ → ℓ → Option σ} {s u : σ} {ls ms : List ℓ} :
    exec step s (ls ++ ms) = some u ↔ ∃ t, exec step s ls = some t ∧ exec step t ms = some u := by
  induction ls generalizing s with
  | nil => simp
  | cons l ls ih =>
    rw [List.cons_append, exec_cons_eq_some]
    constructor
    · rintro ⟨r, hr, hu⟩
      obtain ⟨t, ht, hu⟩ := ih.mp hu
      exact ⟨t, exec_cons_eq_some.mpr ⟨r, hr, ht⟩, hu⟩
    · rintro ⟨t, ht, hu⟩
      obtain ⟨r, hr, ht⟩ := exec_cons_eq_some.mp ht
      exact ⟨r, hr, ih.mpr ⟨t, ht, hu⟩⟩

theorem Reaches.exists {step : σ → ℓ → Option σ} {s : σ} {ls : List ℓ} {p : σ → Prop}
    (h : Reaches step s ls p) : ∃ t, exec step s ls = some t ∧ p t := by
  unfold Reaches at h
  cases hs : exec step s ls with
  | none => simp [hs] at h
  | some t => exact ⟨t, rfl, by simpa [hs] using h⟩

/-- The run is evaluated for `p`, and the rest follows from what is known of its last state. -/
theorem Reaches.exists_of {step : σ → ℓ → Option σ} {s : σ} {ls : List ℓ} {p q : σ → Prop} (h : Reaches step s ls p)
    (hq : ∀ t, exec step s ls = some t → p t → q t) : ∃ t, exec step s ls = some t ∧ q t := by
  obtain ⟨t, ht, hp⟩ := h.exists
  exact ⟨t, ht, hq t ht hp⟩

theorem Along.cons {step : σ → ℓ → Option σ} {C : σ → ℓ → Prop} {s t : σ} {l : ℓ} {ls : List ℓ}
    (h : Along step C s (l :: ls)) (hs : step s l = some t) : C s l ∧ Along step C t ls := by
  obtain ⟨hc, h⟩ := h
  rw [hs] at h
  exact ⟨hc, h⟩

theorem Along.and {step : σ → ℓ → Option σ} {C D : σ → ℓ → Prop} {s : σ} {ls : List ℓ}
    (hC : Along step C s ls) (hD : Along step D s ls) : Along step (fun s l => C s l ∧ D s l) s ls := by
  induction ls generalizing s with
  | nil => trivial
  | cons l ls ih =>
    refine ⟨⟨hC.1, hD.1⟩, ?_⟩
    cases hs : step s l with
    | none => trivial
    | some t => exact ih (hC.cons hs).2 (hD.cons hs).2

/-- A condition that each of the labels meets in every state. -/
theorem Along.of_forall {step : σ → ℓ → Option σ} {C : σ → ℓ → Prop} {s : σ} {ls : List ℓ}
    (hC : ∀ l ∈ ls, ∀ s, C s l) : Along step C s ls := by
  induction ls generalizing s with
  | nil => trivial
  | cons l ls ih =>
    refine ⟨hC l (by simp) s, ?_⟩
    cases hs : step s l with
    | none => trivial
    | some t => exact ih (fun m hm => hC m (by simp [hm]))

/-- A condition on the labels alone. -/
theorem Along.of_labels {step : σ → ℓ → Option σ} {p : ℓ → Prop} {s : σ} {ls : List ℓ} (hp : ∀ l ∈ ls, p l) :
    Along step (fun _ l => p l) s ls :=
  .of_forall fun l hl _ => hp l hl

theorem Along.append {step : σ → ℓ → Option σ} {C : σ → ℓ → Prop} {s t : σ} {ls ms : List ℓ}
    (h : Along step C s (ls ++ ms)) (hs : exec step s ls = some t) :
    Along step C s ls ∧ Along step C t ms := by
  induction ls generalizing s with
  | nil =>
    cases hs
    exact ⟨trivial, h⟩
  | cons l ls ih =>
    obtain ⟨r, hr, ht⟩ := exec_cons_eq_some.mp hs
    obtain ⟨hc, hrest⟩ := h.cons hr
    obtain ⟨hl, hm⟩ := ih hrest ht
    exact ⟨⟨hc, by rw [hr]; exact hl⟩, hm⟩

/-- A run that does not conform has a step that does not. -/
theorem exists_of_not_along {step : σ → ℓ → Option σ} {C : σ → ℓ → Prop} {s : σ} {ls : List ℓ}
    (h : ¬Along step C s ls) :
    ∃ before l after t, ls = before ++ l :: after ∧ exec step s before = some t ∧ ¬C t l := by
  induction ls generalizing s with
  | nil => exact (h trivial).elim
  | cons l ls ih =>
    by_cases hc : C s l
    · cases hs : step s l with
      | none => exact (h ⟨hc, by rw [hs]; trivial⟩).elim
      | some t =>
        have hrest : ¬Along step C t ls := fun hrest => h ⟨hc, by rw [hs]; exact hrest⟩
        obtain ⟨before, m, after, u, rfl, hu, hm⟩ := ih hrest
        exact ⟨l :: before, m, after, u, rfl, exec_cons_eq_some.mpr ⟨t, hs, hu⟩, hm⟩
    · exact ⟨[], l, ls, s, rfl, rfl, hc⟩

/-- The invariant rule. A property of the first state that every conforming step preserves holds at the end
of every conforming run. -/
theorem exec_invariant {step : σ → ℓ → Option σ} {C : σ → ℓ → Prop} {I : σ → Prop}
    (hstep : ∀ s l t, I s → C s l → step s l = some t → I t) {s u : σ} {ls : List ℓ} (hs : I s)
    (hC : Along step C s ls) (hu : exec step s ls = some u) : I u := by
  induction ls generalizing s with
  | nil =>
    cases hu
    exact hs
  | cons l ls ih =>
    obtain ⟨t, ht, hu⟩ := exec_cons_eq_some.mp hu
    obtain ⟨hc, hrest⟩ := hC.cons ht
    exact ih (hstep s l t hs hc ht) hrest hu

/-- The rule of the trap. A step that does not conform leads into a trap that no step leaves, so a run that ends
outside of the trap conforms. -/
theorem Along.of_not_trapped {step : σ → ℓ → Option σ} {C D : σ → ℓ → Prop} {I T : σ → Prop}
    (hinv : ∀ s l t, I s → D s l → step s l = some t → I t)
    (hfalls : ∀ s l t, I s → ¬C s l → step s l = some t → T t)
    (hstays : ∀ s l t, I s → T s → D s l → step s l = some t → T t) {s u : σ} {ls : List ℓ} (hs : I s)
    (hD : Along step D s ls) (hu : exec step s ls = some u) (hfree : ¬T u) : Along step C s ls := by
  by_contra hnot
  obtain ⟨before, l, after, t, rfl, ht, hl⟩ := exists_of_not_along hnot
  rw [exec_append ht] at hu
  obtain ⟨hbefore, hrest⟩ := hD.append ht
  obtain ⟨r, hr, hu⟩ := exec_cons_eq_some.mp hu
  obtain ⟨hdl, hafter⟩ := hrest.cons hr
  have hit := exec_invariant hinv hs hbefore ht
  have hend : I u ∧ T u := by
    refine exec_invariant (I := fun s => I s ∧ T s) (C := D) ?_ ⟨hinv t l r hit hdl hr, hfalls t l r hit hl hr⟩
      hafter hu
    rintro v m v' ⟨hv, htrap⟩ hm hstep
    exact ⟨hinv v m v' hv hm hstep, hstays v m v' hv htrap hm hstep⟩
  exact hfree hend.2

/-- The invariant rule for a property that every step preserves. -/
theorem exec_preserves {step : σ → ℓ → Option σ} {I : σ → Prop} (hstep : ∀ s l t, I s → step s l = some t → I t)
    {s u : σ} {ls : List ℓ} (hs : I s) (hu : exec step s ls = some u) : I u :=
  exec_invariant (C := fun _ _ => True) (fun s l t hs _ => hstep s l t hs) hs (.of_labels fun _ _ => trivial) hu

theorem trace_cons {α : Type*} {step : σ → ℓ → Option σ} {emits : σ → ℓ → List α} {s t : σ} {l : ℓ} {ls : List ℓ}
    (hs : step s l = some t) : trace step emits s (l :: ls) = emits s l ++ trace step emits t ls := by
  rw [trace, hs, Option.elim_some]

/-- The steps of a run that emits nothing. -/
theorem Along.of_trace_nil {α : Type*} {step : σ → ℓ → Option σ} {emits : σ → ℓ → List α} {s : σ} {ls : List ℓ}
    (h : trace step emits s ls = []) : Along step (fun s l => emits s l = []) s ls := by
  induction ls generalizing s with
  | nil => trivial
  | cons l ls ih =>
    rw [trace, List.append_eq_nil_iff] at h
    refine ⟨h.1, ?_⟩
    cases hs : step s l with
    | none => trivial
    | some t =>
      rw [hs] at h
      exact ih h.2

theorem Along.mono {step : σ → ℓ → Option σ} {C D : σ → ℓ → Prop} (hmono : ∀ s l, C s l → D s l) {s : σ}
    {ls : List ℓ} (h : Along step C s ls) : Along step D s ls := by
  induction ls generalizing s with
  | nil => trivial
  | cons l ls ih =>
    refine ⟨hmono s l h.1, ?_⟩
    cases hs : step s l with
    | none => trivial
    | some t => exact ih (h.cons hs).2

theorem mem_trace {α : Type*} {step : σ → ℓ → Option σ} {emits : σ → ℓ → List α} {s : σ} {ls : List ℓ} {a : α} :
    a ∈ trace step emits s ls ↔
      ∃ before l after t, ls = before ++ l :: after ∧ exec step s before = some t ∧ a ∈ emits t l := by
  induction ls generalizing s with
  | nil => simp [trace]
  | cons m ls ih =>
    rw [trace, List.mem_append]
    constructor
    · rintro (ha | ha)
      · exact ⟨[], m, ls, s, rfl, rfl, ha⟩
      · cases hs : step s m with
        | none => simp [hs] at ha
        | some r =>
          rw [hs, Option.elim_some] at ha
          obtain ⟨before, l, after, t, rfl, ht, ha⟩ := ih.mp ha
          exact ⟨m :: before, l, after, t, rfl, exec_cons_eq_some.mpr ⟨r, hs, ht⟩, ha⟩
    · rintro ⟨before, l, after, t, hls, ht, ha⟩
      cases before with
      | nil =>
        cases hls
        cases ht
        exact .inl ha
      | cons k before =>
        cases hls
        obtain ⟨r, hr, ht⟩ := exec_cons_eq_some.mp ht
        refine .inr ?_
        rw [hr, Option.elim_some]
        exact ih.mpr ⟨before, l, after, t, rfl, ht, ha⟩

/-- A selection from the emissions of a run is a run's emission of selections. -/
theorem trace_hom {α β : Type*} {h : List α → List β} (hnil : h [] = []) (happend : ∀ a b, h (a ++ b) = h a ++ h b)
    (step : σ → ℓ → Option σ) (emits : σ → ℓ → List α) (s : σ) (ls : List ℓ) :
    h (trace step emits s ls) = trace step (fun s l => h (emits s l)) s ls := by
  induction ls generalizing s with
  | nil => exact hnil
  | cons l ls ih =>
    rw [trace, trace, happend]
    cases step s l with
    | none => simp [hnil]
    | some t => simp only [Option.elim_some, ih]

/-- The invariant rule for properties that also speak of what the run has emitted. -/
theorem exec_invariant_trace_along {α : Type*} {step : σ → ℓ → Option σ} {C : σ → ℓ → Prop} {emits : σ → ℓ → List α}
    {I : List α → σ → Prop}
    (hstep : ∀ emitted s l t, I emitted s → C s l → step s l = some t → I (emitted ++ emits s l) t) {emitted : List α}
    {s u : σ} {ls : List ℓ} (hs : I emitted s) (hC : Along step C s ls) (hu : exec step s ls = some u) :
    I (emitted ++ trace step emits s ls) u := by
  induction ls generalizing emitted s with
  | nil =>
    cases hu
    rw [trace, List.append_nil]
    exact hs
  | cons l ls ih =>
    obtain ⟨t, ht, hu⟩ := exec_cons_eq_some.mp hu
    obtain ⟨hc, hrest⟩ := hC.cons ht
    rw [trace_cons ht, ← List.append_assoc]
    exact ih (hstep emitted s l t hs hc ht) hrest hu

theorem exec_invariant_trace {α : Type*} {step : σ → ℓ → Option σ} {emits : σ → ℓ → List α} {I : List α → σ → Prop}
    (hstep : ∀ emitted s l t, I emitted s → step s l = some t → I (emitted ++ emits s l) t) {emitted : List α}
    {s u : σ} {ls : List ℓ} (hs : I emitted s) (hu : exec step s ls = some u) :
    I (emitted ++ trace step emits s ls) u :=
  exec_invariant_trace_along (C := fun _ _ => True) (fun emitted s l t hs _ => hstep emitted s l t hs) hs
    (.of_labels fun _ _ => trivial) hu

/-- The rule of the kept property. Where a step that starts in the invariant keeps it if it conforms, and leads to the
property only if it conforms, the property holds throughout a run exactly if the run conforms. -/
theorem Along.iff_prefixes {step : σ → ℓ → Option σ} {C : σ → ℓ → Prop} {I P : σ → Prop} (hkept : ∀ s, I s → P s)
    (hstep : ∀ s l t, I s → step s l = some t → (C s l → I t) ∧ (P t → C s l)) {s u : σ} {ls : List ℓ} (hs : I s)
    (hu : exec step s ls = some u) :
    (∀ taken t, taken <+: ls → exec step s taken = some t → P t) ↔ Along step C s ls := by
  induction ls generalizing s with
  | nil =>
    refine ⟨fun _ => trivial, fun _ taken t htaken ht => ?_⟩
    rw [List.prefix_nil.mp htaken] at ht
    cases ht
    exact hkept s hs
  | cons l ls ih =>
    obtain ⟨r, hr, hrest⟩ := exec_cons_eq_some.mp hu
    obtain ⟨hconforms, honly⟩ := hstep s l r hs hr
    constructor
    · intro hall
      have hl : C s l := honly (hall [l] r (List.prefix_append [l] ls) (exec_cons_eq_some.mpr ⟨r, hr, rfl⟩))
      refine ⟨hl, ?_⟩
      rw [hr]
      refine (ih (hconforms hl) hrest).mp fun taken t htaken ht => ?_
      exact hall (l :: taken) t (List.cons_prefix_cons.mpr ⟨rfl, htaken⟩) (exec_cons_eq_some.mpr ⟨r, hr, ht⟩)
    · intro halong taken t htaken ht
      obtain ⟨hl, halong⟩ := halong.cons hr
      cases taken with
      | nil =>
        cases ht
        exact hkept s hs
      | cons first taken =>
        obtain ⟨rfl, hshorter⟩ := List.cons_prefix_cons.mp htaken
        obtain ⟨r', hr', ht⟩ := exec_cons_eq_some.mp ht
        obtain rfl : r' = r := Option.some.inj (hr'.symm.trans hr)
        exact (ih (hconforms hl) hrest).mpr halong taken t hshorter ht

/-- A property that holds at the beginning of a run and not at its end is lost in one of the steps. -/
theorem exec_loses {step : σ → ℓ → Option σ} {p : σ → Prop} {s u : σ} {ls : List ℓ} (hs : p s) (hu : ¬p u)
    (hrun : exec step s ls = some u) : ∃ before l after t t', ls = before ++ l :: after ∧
      exec step s before = some t ∧ step t l = some t' ∧ p t ∧ ¬p t' := by
  induction ls generalizing s with
  | nil =>
    cases hrun
    exact (hu hs).elim
  | cons l ls ih =>
    obtain ⟨t, ht, hrun⟩ := exec_cons_eq_some.mp hrun
    by_cases hp : p t
    · obtain ⟨before, m, after, r, r', rfl, hbefore, hstep⟩ := ih hp hrun
      exact ⟨l :: before, m, after, r, r', rfl, exec_cons_eq_some.mpr ⟨t, ht, hbefore⟩, hstep⟩
    · exact ⟨[], l, ls, s, t, rfl, rfl, ht, hs, hp⟩

/-- The rule of the first fault. The invariant holds as long as the run emits nothing but what is allowed, and the
first other emission breaks the run for good; so what the invariant gives and the breach excludes holds at the end
of exactly the runs that emit nothing else. All three may speak of what the run has logged. -/
theorem exec_iff_trace_log {α β : Type*} {step : σ → ℓ → Option σ} {C : σ → ℓ → Prop} {emits : σ → ℓ → List α}
    {g : σ → ℓ → List β} {allowed : α → Prop} {I B p : List β → σ → Prop}
    (hkeeps : ∀ log s l t, I log s → C s l → (∀ a ∈ emits s l, allowed a) → step s l = some t →
      I (log ++ g s l) t)
    (hbreaks : ∀ log s l t, I log s → C s l → (∃ a ∈ emits s l, ¬allowed a) → step s l = some t →
      B (log ++ g s l) t)
    (hbroken : ∀ log s l t, B log s → C s l → step s l = some t → B (log ++ g s l) t)
    (hgood : ∀ log s, I log s → p log s) (hbad : ∀ log s, B log s → ¬p log s) (log : List β) {s u : σ} {ls : List ℓ}
    (hs : I log s) (hC : Along step C s ls) (hu : exec step s ls = some u) :
    p (log ++ trace step g s ls) u ↔ ∀ a ∈ trace step emits s ls, allowed a := by
  induction ls generalizing log s with
  | nil =>
    cases hu
    simp [trace, hgood _ _ hs]
  | cons l ls ih =>
    obtain ⟨t, ht, hu⟩ := exec_cons_eq_some.mp hu
    obtain ⟨hc, hrest⟩ := hC.cons ht
    rw [trace_cons ht, trace_cons ht, List.forall_mem_append, ← List.append_assoc]
    by_cases hallowed : ∀ a ∈ emits s l, allowed a
    · rw [and_iff_right hallowed]
      exact ih _ (hkeeps log s l t hs hc hallowed ht) hrest hu
    · have hfault : ∃ a ∈ emits s l, ¬allowed a := by simpa using hallowed
      have hbreach := hbreaks log s l t hs hc hfault ht
      have hnot := hbad _ u (exec_invariant_trace_along hbroken hbreach hrest hu)
      exact ⟨fun hp => (hnot hp).elim, fun hall => (hallowed hall.1).elim⟩

/-- The rule of the first fault for properties of the states alone. -/
theorem exec_iff_trace {α : Type*} {step : σ → ℓ → Option σ} {emits : σ → ℓ → List α} {allowed : α → Prop}
    {I B p : σ → Prop} (hkeeps : ∀ s l t, I s → (∀ a ∈ emits s l, allowed a) → step s l = some t → I t)
    (hbreaks : ∀ s l t, I s → (∃ a ∈ emits s l, ¬allowed a) → step s l = some t → B t)
    (hbroken : ∀ s l t, B s → step s l = some t → B t) (hgood : ∀ s, I s → p s) (hbad : ∀ s, B s → ¬p s) {s u : σ}
    {ls : List ℓ} (hs : I s) (hu : exec step s ls = some u) : p u ↔ ∀ a ∈ trace step emits s ls, allowed a :=
  exec_iff_trace_log (C := fun _ _ => True) (g := fun _ _ => ([] : List α)) (I := fun _ => I) (B := fun _ => B)
    (p := fun _ => p) (fun _ s l t hs _ => hkeeps s l t hs) (fun _ s l t hs _ => hbreaks s l t hs)
    (fun _ s l t hs _ => hbroken s l t hs) (fun _ => hgood) (fun _ => hbad) [] hs (.of_labels fun _ _ => trivial) hu

/-- A log to which each step adds what its label says holds, at the end of a run, what the labels say. -/
theorem exec_log {α : Type*} {step : σ → ℓ → Option σ} (log : σ → List α) (adds : ℓ → List α)
    (hstep : ∀ s l t, step s l = some t → log t = log s ++ adds l) {s u : σ} {ls : List ℓ}
    (hu : exec step s ls = some u) : log u = log s ++ ls.flatMap adds := by
  induction ls generalizing s with
  | nil =>
    cases hu
    simp
  | cons l ls ih =>
    obtain ⟨t, ht, hu⟩ := exec_cons_eq_some.mp hu
    rw [ih hu, hstep s l t ht, List.flatMap_cons, List.append_assoc]

/-- The conservation rule. When each step takes in `f` at the back of what the state holds and gives out `g`
at its front, so does the whole run. -/
theorem trace_conserved {α : Type*} {step : σ → ℓ → Option σ} {f g : σ → ℓ → List α} (held : σ → List α)
    (hstep : ∀ s l t, step s l = some t → held s ++ f s l = g s l ++ held t) {s u : σ} {ls : List ℓ}
    (hu : exec step s ls = some u) : held s ++ trace step f s ls = trace step g s ls ++ held u := by
  induction ls generalizing s with
  | nil =>
    cases hu
    simp [trace]
  | cons l ls ih =>
    obtain ⟨t, ht, hu⟩ := exec_cons_eq_some.mp hu
    rw [trace_cons ht, trace_cons ht, ← List.append_assoc, hstep s l t ht, List.append_assoc, ih hu,
      List.append_assoc]

/-- The rule of the component. When every step of a system, seen through `view`, is a run of another system, so is
every run. -/
theorem exec_view {τ μ : Type*} {step : σ → ℓ → Option σ} {step' : τ → μ → Option τ} (view : σ → τ)
    (labels : σ → ℓ → List μ)
    (hstep : ∀ s l t, step s l = some t → exec step' (view s) (labels s l) = some (view t)) {s u : σ} {ls : List ℓ}
    (hu : exec step s ls = some u) : exec step' (view s) (trace step labels s ls) = some (view u) := by
  induction ls generalizing s with
  | nil =>
    cases hu
    rfl
  | cons l ls ih =>
    obtain ⟨t, ht, hu⟩ := exec_cons_eq_some.mp hu
    rw [trace_cons ht]
    exact exec_append_eq_some.mpr ⟨view t, hstep s l t ht, ih hu⟩

/-- Steps with allowed labels lead from the state to one with `p`. -/
def CanReach (step : σ → ℓ → Option σ) (allowed : ℓ → Prop) (s : σ) (p : σ → Prop) : Prop :=
  ∃ ls t, (∀ l ∈ ls, allowed l) ∧ exec step s ls = some t ∧ p t

theorem CanReach.refl {step : σ → ℓ → Option σ} {allowed : ℓ → Prop} {s : σ} {p : σ → Prop} (h : p s) :
    CanReach step allowed s p :=
  ⟨[], s, by simp, rfl, h⟩

theorem CanReach.cons {step : σ → ℓ → Option σ} {allowed : ℓ → Prop} {s t : σ} {p : σ → Prop} {l : ℓ}
    (h : CanReach step allowed t p) (hl : allowed l) (hs : step s l = some t) : CanReach step allowed s p := by
  obtain ⟨ls, u, hls, hu, hp⟩ := h
  refine ⟨l :: ls, u, ?_, exec_cons_eq_some.mpr ⟨t, hs, hu⟩, hp⟩
  intro m hm
  obtain rfl | hm := List.mem_cons.mp hm
  · exact hl
  · exact hls m hm

theorem CanReach.trans {step : σ → ℓ → Option σ} {allowed : ℓ → Prop} {s : σ} {p q : σ → Prop}
    (h : CanReach step allowed s p) (hq : ∀ t, p t → CanReach step allowed t q) : CanReach step allowed s q := by
  obtain ⟨ls, t, hls, ht, hp⟩ := h
  obtain ⟨ms, u, hms, hu, hqu⟩ := hq t hp
  refine ⟨ls ++ ms, u, ?_, (exec_append ht).trans hu, hqu⟩
  intro l hl
  obtain hl | hl := List.mem_append.mp hl
  · exact hls l hl
  · exact hms l hl

end Run
