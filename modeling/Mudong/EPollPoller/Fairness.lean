import Mudong.EPollPoller.Poll

namespace mudong.ev

def PollLabel.isPoll {κ : Type} : PollLabel κ → Bool
  | .poll _ => true
  | _ => false

theorem PollLabel.eq_poll {κ : Type} {l : PollLabel κ} (hl : l.isPoll = true) : ∃ condition, l = .poll condition := by
  cases l with
  | poll condition => exact ⟨condition, rfl⟩
  | interest k op condition => cases hl
  | news k condition => cases hl
  | interrupted => cases hl

namespace Poller

variable {κ : Type}

/-- The channel stays registered, and whenever `epoll_wait` looks there is something to report of it. -/
def Stays (k : κ) (p : Poller κ) : PollLabel κ → Prop
  | .interest j op _ => j = k → op.apply (p.channels k).events_ ≠ 0
  | .poll condition => (p.answer condition k).isSome
  | _ => True

variable [DecidableEq κ]

instance (k : κ) (p : Poller κ) (l : PollLabel κ) : Decidable (Stays k p l) :=
  match l with
  | .interest _ _ _ => inferInstanceAs (Decidable (_ → _))
  | .poll _ => inferInstanceAs (Decidable (_ = true))
  | .news _ _ | .interrupted => inferInstanceAs (Decidable True)

/-- The kernel puts a channel behind those that are ready. -/
theorem enqueue_passes {p : Poller κ} {k : κ} (hk : k ∈ p.ready) (j : κ) (condition : Events) :
    k ∈ (p.enqueue j condition).ready ∧ (p.enqueue j condition).ready.idxOf k = p.ready.idxOf k ∧
      (p.enqueue j condition).events_ = p.events_ := by
  unfold enqueue
  split
  · exact ⟨List.mem_append_left _ hk, List.idxOf_append_of_mem hk, rfl⟩
  · exact ⟨hk, rfl, rfl⟩

/-- Other steps than polls do not put a ready channel back. -/
theorem Stays.keeps {d : Descriptors κ} {p q : Poller κ} {k : κ} {l : PollLabel κ} (hk : k ∈ p.ready)
    (hstays : Stays k p l) (hl : l.isPoll = false) (hstep : step d p l = some q) :
    k ∈ q.ready ∧ q.ready.idxOf k ≤ p.ready.idxOf k ∧ q.events_ = p.events_ := by
  cases l with
  | interest j op condition =>
    simp only [step, Option.map_eq_some_iff] at hstep
    obtain ⟨t, ht, rfl⟩ := hstep
    split
    · rename_i hnone
      have hne : k ≠ j := by
        rintro rfl
        rw [(channels_interest ht).1] at hnone
        exact hstays rfl hnone
      have hkept : decide (k ≠ j) = true := decide_eq_true hne
      exact ⟨List.mem_filter.mpr ⟨hk, hkept⟩, RoundRobin.idxOf_filter_le (p := (decide <| · ≠ j)) hkept p.ready, rfl⟩
    · obtain ⟨hmem, hidx, hsize⟩ := enqueue_passes (p := { p with toPolled := t }) hk j condition
      exact ⟨hmem, Nat.le_of_eq hidx, hsize⟩
  | news j condition =>
    cases hstep
    obtain ⟨hmem, hidx, hsize⟩ := enqueue_passes hk j condition
    exact ⟨hmem, Nat.le_of_eq hidx, hsize⟩
  | poll condition => cases hl
  | interrupted =>
    cases hstep
    exact ⟨hk, Nat.le_refl _, rfl⟩

/-- A poll that does not report it brings it nearer by the size of `events_`, which is doubled. -/
theorem Stays.passes {d : Descriptors κ} {p q : Poller κ} {k : κ} {condition : κ → Events} (hk : k ∈ p.ready)
    (hstays : Stays k p (.poll condition)) (hstep : step d p (.poll condition) = some q)
    (hnot : k ∉ p.reports (.poll condition)) :
    k ∈ q.ready ∧ q.ready.idxOf k + p.events_ ≤ p.ready.idxOf k ∧ q.events_ = 2 * p.events_ := by
  have hpolls := step_poll hstep
  obtain ⟨hfull, hmem, hidx⟩ := RoundRobin.turn_passes hstays hk hnot
  refine ⟨hpolls.ready ▸ hmem, hpolls.ready ▸ hidx, ?_⟩
  rw [hpolls.events_]
  change (p.reported condition).length = p.events_ at hfull
  split
  · rfl
  · rename_i hsome
    omega

/-- The sizes of `events_` in so many polls that fill it, added up. -/
theorem sizes_succ (size n : Nat) : size * (2 ^ (n + 1) - 1) = 2 * size * (2 ^ n - 1) + size := by
  obtain ⟨m, hm⟩ := Nat.exists_eq_succ_of_ne_zero (Nat.ne_of_gt (Nat.two_pow_pos n))
  have hpred : m.succ * 2 - 1 = 2 * m + 1 := by omega
  calc size * (2 ^ (n + 1) - 1) = size * (2 * m + 1) := by rw [Nat.pow_succ, hm, hpred]
    _ = 2 * size * m + size := by rw [Nat.mul_add, Nat.mul_one, Nat.mul_left_comm, Nat.mul_assoc]
    _ = 2 * size * (2 ^ n - 1) + size := by rw [hm, Nat.succ_sub_one]

/-- As long as it has not been reported, every poll has found all of `events_` taken by channels that were before it. -/
theorem passed_along {d : Descriptors κ} {p q : Poller κ} {k : κ} {ls : List (PollLabel κ)} (hk : k ∈ p.ready)
    (hrun : Run.exec (step d) p ls = some q) (hstays : Run.Along (step d) (Stays k) p ls)
    (hnot : k ∉ Run.trace (step d) reports p ls) :
    q.ready.idxOf k + p.events_ * (2 ^ ls.countP PollLabel.isPoll - 1) ≤ p.ready.idxOf k := by
  induction ls generalizing p with
  | nil =>
    cases hrun
    simp
  | cons l ls ih =>
    obtain ⟨r, hstep, htail⟩ := Run.exec_cons_eq_some.mp hrun
    obtain ⟨hl, hafter⟩ := hstays.cons hstep
    rw [Run.trace_cons hstep, List.mem_append, not_or] at hnot
    cases hpoll : l.isPoll with
    | false =>
      obtain ⟨hmem, hidx, hsize⟩ := hl.keeps hk hpoll hstep
      have hrest := ih hmem htail hafter hnot.2
      rw [hsize] at hrest
      rw [List.countP_cons_of_neg (by simp [hpoll])]
      omega
    | true =>
      obtain ⟨condition, rfl⟩ := PollLabel.eq_poll hpoll
      obtain ⟨hmem, hidx, hsize⟩ := hl.passes hk hstep hnot.1
      have hrest := ih hmem htail hafter hnot.2
      rw [hsize] at hrest
      rw [List.countP_cons_of_pos hpoll, sizes_succ]
      omega

/-- No ready channel starves. A channel in the ready list that stays registered and keeps something to report is
reported, whatever else happens, at the latest by that poll with which all the sizes that `events_` takes on from now
on, doubled each time and all of them accepted by `epoll_wait`, exceed its place in the list. -/
theorem ready_channel_reported (d : Descriptors κ) {p q : Poller κ} {k : κ} {ls : List (PollLabel κ)}
    (hready : k ∈ p.ready) (hrun : Run.exec (step d) p ls = some q) (hstays : Run.Along (step d) (Stays k) p ls)
    (hpolls : p.ready.idxOf k < p.events_ * (2 ^ ls.countP PollLabel.isPoll - 1)) :
    k ∈ Run.trace (step d) reports p ls := by
  by_contra hnot
  have hpassed := passed_along hready hrun hstays hnot
  omega

/-- The last of more channels than fit into `events_` at first. -/
theorem ready_channel_reported_last :
    ∃ p, Run.exec (step ⟨Int.ofNat, Int.natCast_nonneg, fun _ _ => Int.ofNat.inj⟩) init
        ((List.range 130).map fun k => .interest k .enableRead EPOLLIN) = some p ∧
      p.ready.idxOf 129 = 129 ∧
      129 ∈ Run.trace (step ⟨Int.ofNat, Int.natCast_nonneg, fun _ _ => Int.ofNat.inj⟩) reports p
        [.poll fun _ => EPOLLIN, .poll fun _ => EPOLLIN] := by
  apply Run.Reaches.exists_of (p := fun p : Poller Nat => p.events_ = 128 ∧ p.ready.idxOf 129 = 129 ∧ 129 ∈ p.ready ∧
    Run.Reaches (step ⟨Int.ofNat, Int.natCast_nonneg, fun _ _ => Int.ofNat.inj⟩) p
      [.poll fun _ => EPOLLIN, .poll fun _ => EPOLLIN] (fun _ => True) ∧
    Run.Along (step ⟨Int.ofNat, Int.natCast_nonneg, fun _ _ => Int.ofNat.inj⟩) (Stays 129) p
      [.poll fun _ => EPOLLIN, .poll fun _ => EPOLLIN])
  · decide +kernel
  · rintro p - ⟨hsize, hidx, hready, hpolls, hstays⟩
    obtain ⟨q, hrun, -⟩ := hpolls.exists
    refine ⟨hidx, ready_channel_reported _ hready hrun hstays ?_⟩
    rw [hidx, hsize]
    decide

end Poller

end mudong.ev
