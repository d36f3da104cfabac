import Mudong.Buffer.Calls

namespace mudong.ev.Buffer

namespace Call

/-- A bare request for room, which may ask for more than is ever written. -/
def isRequest : Call → Bool
  | .basic (.ensureWritableBytes _) => true
  | _ => false

theorem reserved_eq_zero {c : Call} (hc : c.isRequest = false) : c.reserved = 0 := by
  cases c with
  | basic op => cases op <;> first | rfl | cases hc
  | _ => rfl

/-- One call of ordinary traffic: within its precondition, appending at most `L` bytes by a single append, and leaving
at most `M` readable bytes behind. -/
def Within (M L : Nat) (b : Buffer) (c : Call) : Prop :=
  c.Pre b ∧ c.isRequest = false ∧ c.requested b ≤ L ∧ (c.run b).elim True fun next => next.readableBytes ≤ M

instance decidableWithin (M L : Nat) (b : Buffer) (c : Call) : Decidable (c.Within M L b) :=
  inferInstanceAs (Decidable (c.Pre b ∧ c.isRequest = false ∧ c.requested b ≤ L ∧
    (c.run b).elim True fun next => next.readableBytes ≤ M))

/-- Growth is bounded: the reader is at most the appended length past the reserved zone when the storage grows, and
the readable bytes then fill the rest of it. -/
theorem Effect.length_le {b next : Buffer} {c : Call} {M L bound : Nat} (h : Effect b c next)
    (hc : c.isRequest = false) (hL : c.requested b ≤ L) (hM : next.readableBytes ≤ M)
    (hbound : b.buffer_.length ≤ bound) (htraffic : M + L + kCheapPrepend ≤ bound) :
    next.buffer_.length ≤ bound := by
  obtain hsame | ⟨hsize, hreader⟩ := h.size
  · omega
  · have hreserved := reserved_eq_zero hc
    unfold readableBytes at hM
    omega

/-- The buffer does not creep: over a run of any length its storage stays within its first size, or what the readable
bytes, a single append and the reserved zone take. -/
theorem buffer_does_not_creep {initialSize M L : Nat} {calls : List Call} {b : Buffer}
    (hrun : Run.exec run (init initialSize) calls = some b)
    (hwithin : Run.Along run (fun b c => c.Within M L b) (init initialSize) calls) :
    b.buffer_.length ≤ max (initialSize + 8) (M + L + 8) := by
  have hinvariant : b.Valid ∧ b.buffer_.length ≤ max (initialSize + 8) (M + L + 8) := by
    refine Run.exec_invariant (I := fun b => b.Valid ∧ b.buffer_.length ≤ max (initialSize + 8) (M + L + 8)) ?_
      ⟨init_valid initialSize, ?_⟩ hwithin hrun
    · rintro b c next ⟨hvalid, hbound⟩ ⟨hpre, hrequest, hL, hM⟩ hstep
      obtain ⟨next', hstep', heffect⟩ := run_effect hvalid c hpre
      rw [hstep] at hstep' hM
      cases hstep'
      exact ⟨heffect.valid, heffect.length_le hrequest hL hM hbound (Nat.le_max_right _ _)⟩
    · have hlength : (init initialSize).buffer_.length = kCheapPrepend + initialSize := List.length_replicate
      have hreserve : kCheapPrepend = 8 := rfl
      omega
  exact hinvariant.2

/-- A read whose overflow finds one byte too little for a slide grows the storage to one less than the bound. -/
theorem buffer_does_not_creep_tight :
    ∃ b, Run.exec run (init 4) [.basic (.append .chars [1, 2, 3, 4]), .basic (.retrieve 3),
        .readFd (.filled [5, 6, 7, 8])] = some b ∧
      b.buffer_.length = 16 ∧ b.buffer_.length ≤ max (4 + 8) (5 + 4 + 8) := by
  apply Run.Reaches.exists_of (p := fun b : Buffer => b.buffer_.length = 16)
  · decide +kernel
  · intro b hrun hlength
    exact ⟨hlength, buffer_does_not_creep (M := 5) (L := 4) hrun (by decide +kernel)⟩

/-- The bytes prepended by a list of calls. -/
def prependedBy (calls : List Call) : Nat := (calls.map prepended).sum

/-- Calls within their preconditions, those that prepend left aside. -/
def PreOthers (b : Buffer) (c : Call) : Prop := c.prepended = 0 → c.Pre b

instance decidablePreOthers (b : Buffer) (c : Call) : Decidable (c.PreOthers b) :=
  inferInstanceAs (Decidable (c.prepended = 0 → c.Pre b))

theorem pre_of_prepended {b : Buffer} {c : Call} (hpre : c.PreOthers b) (hroom : c.prepended ≤ b.prependableBytes) :
    c.Pre b := by
  by_cases hc : c.prepended = 0
  · exact hpre hc
  · cases c with
    | basic op => cases op <;> first | exact hroom | exact (hc rfl).elim
    | prependInt host v => exact hroom
    | _ => exact (hc rfl).elim

theorem prepended_le_of_run {b next : Buffer} {c : Call} (hrun : c.run b = some next) :
    c.prepended ≤ b.prependableBytes := by
  by_contra hnot
  cases c with
  | basic op =>
    cases op with
    | prepend data =>
      have hdata : ¬data.length ≤ b.prependableBytes := hnot
      simp [run, Op.run, Buffer.prepend, hdata] at hrun
    | _ => exact hnot (Nat.zero_le _)
  | prependInt host v =>
    have hdata : ¬v.encoding.length ≤ b.prependableBytes := by
      rw [v.length_encoding]
      exact hnot
    rw [run, v.prepend_eq] at hrun
    simp [Buffer.prepend, hdata] at hrun
  | _ => exact hnot (Nat.zero_le _)

theorem effect_of_run {b next : Buffer} {c : Call} (hvalid : b.Valid) (hpre : c.PreOthers b)
    (hrun : c.run b = some next) : Effect b c next := by
  obtain ⟨next', hrun', heffect⟩ := run_effect hvalid c (pre_of_prepended hpre (prepended_le_of_run hrun))
  rw [hrun] at hrun'
  cases hrun'
  exact heffect

/-- What the reader lacks of the reserve was prepended. -/
theorem Effect.reserve_kept {b next : Buffer} {c : Call} {p : Nat} (h : Effect b c next)
    (hreserve : kCheapPrepend ≤ b.prependableBytes + p) :
    kCheapPrepend ≤ next.prependableBytes + (p + c.prepended) := by
  have hreader := h.reader
  unfold prependableBytes at *
  omega

theorem prependedBy_cons (c : Call) (calls : List Call) :
    prependedBy (c :: calls) = c.prepended + prependedBy calls := by
  rw [prependedBy, List.map_cons, List.sum_cons, prependedBy]

theorem exec_reserve {b next : Buffer} {calls : List Call} {p : Nat} (hvalid : b.Valid)
    (hpre : Run.Along run PreOthers b calls) (hreserve : kCheapPrepend ≤ b.prependableBytes + p)
    (hrun : Run.exec run b calls = some next) : kCheapPrepend ≤ next.prependableBytes + (p + prependedBy calls) := by
  induction calls generalizing b p with
  | nil =>
    cases hrun
    exact hreserve
  | cons c calls ih =>
    obtain ⟨t, hstep, hrun⟩ := Run.exec_cons_eq_some.mp hrun
    obtain ⟨hc, hrest⟩ := hpre.cons hstep
    have heffect := effect_of_run hvalid hc hstep
    have hlast := ih heffect.valid hrest (heffect.reserve_kept hreserve) hrun
    rw [prependedBy_cons]
    omega

/-- As long as the prepends fit the reserve, no assertion fails. -/
theorem exec_succeeds {b : Buffer} {calls : List Call} {p : Nat} (hvalid : b.Valid)
    (hpre : Run.Along run PreOthers b calls) (hreserve : kCheapPrepend ≤ b.prependableBytes + p)
    (htotal : p + prependedBy calls ≤ kCheapPrepend) : ∃ next, Run.exec run b calls = some next := by
  induction calls generalizing b p with
  | nil => exact ⟨b, rfl⟩
  | cons c calls ih =>
    rw [prependedBy_cons] at htotal
    have hprependable : c.prepended ≤ b.prependableBytes := by omega
    obtain ⟨t, hstep, heffect⟩ := run_effect hvalid c (pre_of_prepended hpre.1 hprependable)
    obtain ⟨next, hrun⟩ := ih heffect.valid (hpre.cons hstep).2 (heffect.reserve_kept hreserve) (by omega)
    exact ⟨next, Run.exec_cons_eq_some.mpr ⟨t, hstep, hrun⟩⟩

/-- The header reserve is kept. From any moment of a run at which the whole reserve is prependable, it lacks at most
what has been prepended since; and while that is at most the reserve itself, no prepend fails, whatever the other
calls did in between. -/
theorem header_reserve_kept {initialSize : Nat} (before after : List Call) {mid : Buffer}
    (hpre : Run.Along run PreOthers (init initialSize) (before ++ after))
    (hbefore : Run.exec run (init initialSize) before = some mid) (hmid : kCheapPrepend ≤ mid.prependableBytes) :
    (∀ b, Run.exec run (init initialSize) (before ++ after) = some b →
      kCheapPrepend - prependedBy after ≤ b.prependableBytes) ∧
    (prependedBy after ≤ kCheapPrepend →
      ∃ b, Run.exec run (init initialSize) (before ++ after) = some b) := by
  obtain ⟨hpreBefore, hpreAfter⟩ := hpre.append hbefore
  have hvalid : mid.Valid :=
    Run.exec_invariant (I := Valid) (fun _ _ _ hvalid hc hstep => (effect_of_run hvalid hc hstep).valid)
      (init_valid initialSize) hpreBefore hbefore
  rw [Run.exec_append hbefore]
  constructor
  · intro b hrun
    have hreserve := exec_reserve (p := 0) hvalid hpreAfter hmid hrun
    omega
  · intro htotal
    exact exec_succeeds (p := 0) hvalid hpreAfter hmid (by omega)

/-- Two headers, prepended around a growth, a partial retrieval and a slide. -/
theorem header_reserve_kept_two :
    (∃ b, Run.exec run (init 2) ([.basic (.append .chars [1, 2])] ++ [.prependInt .little (.int16 2),
        .readFd (.filled [3, 4, 5]), .basic (.retrieve 3), .basic (.ensureWritableBytes 4),
        .basic (.prepend [6, 7, 8, 9, 10])]) = some b) ∧
      ∃ b, Run.exec run (init 2) ([.basic (.append .chars [1, 2])] ++ [.prependInt .little (.int16 2),
        .readFd (.filled [3, 4, 5])]) = some b ∧ 6 ≤ b.prependableBytes := by
  obtain ⟨mid, hmid, hreserve⟩ : ∃ mid, Run.exec run (init 2) [.basic (.append .chars [1, 2])] = some mid ∧
      kCheapPrepend ≤ mid.prependableBytes := by
    apply Run.Reaches.exists
    decide +kernel
  constructor
  · exact (header_reserve_kept _ _ (by decide +kernel) hmid hreserve).2 (by decide)
  · obtain ⟨hkept, hsucceeds⟩ := header_reserve_kept _ [.prependInt .little (.int16 2), .readFd (.filled [3, 4, 5])]
      (by decide +kernel) hmid hreserve
    obtain ⟨b, hb⟩ := hsucceeds (by decide)
    exact ⟨b, hb, hkept b hb⟩

end Call

end mudong.ev.Buffer
