import Mudong.EPollPoller
import Mudong.Lib.Run

namespace mudong.ev

/-- The descriptors of a family of channels: open, and no two the same. -/
structure Descriptors (κ : Type) where
  fd : κ → Int
  nonneg : ∀ k, 0 ≤ fd k
  distinct : Function.Injective fd

theorem EPollPoller.updateChannel_add {c : Channel} (hpooling : c.pooling = false) :
    updateChannel c = ({ c with pooling := true }, .EPOLL_CTL_ADD) := by
  simp [updateChannel, hpooling]

theorem EPollPoller.updateChannel_mod {c : Channel} (hpooling : c.pooling = true) (hevents : c.events_ ≠ 0) :
    updateChannel c = (c, .EPOLL_CTL_MOD) := by
  have hsome : c.isNoneEvents = false := beq_eq_false_iff_ne.mpr hevents
  simp [updateChannel, hpooling, hsome]

theorem EPollPoller.updateChannel_del {c : Channel} (hpooling : c.pooling = true) (hevents : c.events_ = 0) :
    updateChannel c = ({ c with pooling := false }, .EPOLL_CTL_DEL) := by
  have hnone : c.isNoneEvents = true := beq_iff_eq.mpr hevents
  simp [updateChannel, hpooling, hnone]

/-- `epoll_ctl` with this operation succeeds on the descriptor. -/
def InterestList.Accepts {κ : Type} (list : InterestList κ) (op : EpollOp) (fd : Int) : Prop :=
  match op with
  | .EPOLL_CTL_ADD => list fd = none
  | .EPOLL_CTL_MOD => ∃ r, list fd = some r
  | .EPOLL_CTL_DEL => ∃ r, list fd = some r

/-- Channels on one loop, and the interest list of its poller. -/
structure Polled (κ : Type) where
  channels : κ → Channel
  interests : InterestList κ

namespace Polled

variable {κ : Type}

def init : Polled κ := { channels := fun _ => Channel.init, interests := .empty }

/-- The channel as the interest operation hands it to `updateChannel`. -/
def requested (s : Polled κ) (k : κ) (op : InterestOp) : Channel :=
  { s.channels k with events_ := op.apply (s.channels k).events_ }

/-- One interest operation on one of the channels, disabled where `updateChannel` asserts. -/
def step [DecidableEq κ] (d : Descriptors κ) (s : Polled κ) (call : κ × InterestOp) : Option (Polled κ) :=
  let (k, op) := call
  if EPollPoller.UpdateAsserts (s.requested k op) then
    let (channel, interests) := s.interests.interest (d.fd k) k (s.channels k) op
    some { channels := Function.update s.channels k channel, interests }
  else none

/-- The `epoll_ctl` that the call issues is one the current list accepts. -/
def IssuesValid (d : Descriptors κ) (s : Polled κ) (call : κ × InterestOp) : Prop :=
  s.interests.Accepts (EPollPoller.updateChannel (s.requested call.1 call.2)).2 (d.fd call.1)

/-- The flags tell which channels have events, and the interest list holds exactly these, with their events and
themselves. -/
structure Mirrors (d : Descriptors κ) (s : Polled κ) : Prop where
  pooling : ∀ k, (s.channels k).pooling = true ↔ (s.channels k).events_ ≠ 0
  listed : ∀ fd r, s.interests fd = some r ↔
    ∃ k, d.fd k = fd ∧ (s.channels k).events_ ≠ 0 ∧ r = ⟨(s.channels k).events_, k⟩

variable {d : Descriptors κ} {s t : Polled κ}

theorem init_mirrors : Mirrors d init := by
  constructor
  · intro k
    simp [init, Channel.init]
  · intro fd r
    simp [init, Channel.init, InterestList.empty]

theorem Mirrors.entry (h : Mirrors d s) {k : κ} (hevents : (s.channels k).events_ ≠ 0) :
    s.interests (d.fd k) = some ⟨(s.channels k).events_, k⟩ :=
  (h.listed _ _).mpr ⟨k, rfl, hevents, rfl⟩

theorem Mirrors.no_entry (h : Mirrors d s) {k : κ} (hevents : (s.channels k).events_ = 0) :
    s.interests (d.fd k) = none := by
  rw [Option.eq_none_iff_forall_ne_some]
  intro r hr
  obtain ⟨j, hfd, hj, _⟩ := (h.listed _ _).mp hr
  rw [d.distinct hfd] at hj
  exact hj hevents

variable [DecidableEq κ]

/-- The entry that mirrors a channel. -/
def entryOf (k : κ) (c : Channel) : Option (Registration κ) :=
  if c.events_ = 0 then none else some ⟨c.events_, k⟩

/-- What a call does, although it is derived from the flag and the new events alone: the operation is valid, the flag
follows the events, and so does the entry of the descriptor. -/
theorem Mirrors.step_cases (h : Mirrors d s) {k : κ} {op : InterestOp} (hstep : step d s (k, op) = some t) :
    IssuesValid d s (k, op) ∧ ∃ c : Channel, (c.pooling = true ↔ c.events_ ≠ 0) ∧
      t.channels = Function.update s.channels k c ∧
      t.interests = Function.update s.interests (d.fd k) (entryOf k c) := by
  have hfd := d.nonneg k
  have hasserts : EPollPoller.UpdateAsserts (s.requested k op) := by
    by_contra hnot
    simp [step, hnot] at hstep
  have ht : t = { channels := Function.update s.channels k (EPollPoller.updateChannel (s.requested k op)).1
                  interests := s.interests.ctl (EPollPoller.updateChannel (s.requested k op)).2 (d.fd k)
                    ⟨(EPollPoller.updateChannel (s.requested k op)).1.events_, k⟩ } := by
    simp only [step, if_pos hasserts, Option.some.injEq] at hstep
    exact hstep.symm
  have hflag : (s.requested k op).pooling = (s.channels k).pooling := rfl
  subst ht
  unfold IssuesValid
  by_cases hold : (s.channels k).events_ = 0
  · -- The channel is not registered, so the assertion gives it events to register.
    have hpooling : (s.requested k op).pooling = false := by
      rw [hflag, Bool.eq_false_iff, ne_eq, h.pooling, not_not]
      exact hold
    have hnew : (s.requested k op).events_ ≠ 0 := by
      obtain hpooled | hsome := hasserts
      · rw [hpooling] at hpooled
        cases hpooled
      · exact beq_eq_false_iff_ne.mp hsome
    have hnone := h.no_entry hold
    rw [EPollPoller.updateChannel_add hpooling]
    refine ⟨hnone, { s.requested k op with pooling := true }, iff_of_true rfl hnew, rfl, ?_⟩
    rw [entryOf, if_neg hnew]
    exact InterestList.ctl_add hfd hnone _
  · have hpooling : (s.requested k op).pooling = true := (h.pooling k).mpr hold
    have hsome := h.entry hold
    by_cases hnew : (s.requested k op).events_ = 0
    · rw [EPollPoller.updateChannel_del hpooling hnew]
      refine ⟨⟨_, hsome⟩, { s.requested k op with pooling := false }, by simp [hnew], rfl, ?_⟩
      rw [entryOf, if_pos hnew]
      exact InterestList.ctl_del hfd hsome _
    · rw [EPollPoller.updateChannel_mod hpooling hnew]
      refine ⟨⟨_, hsome⟩, s.requested k op, iff_of_true hpooling hnew, rfl, ?_⟩
      rw [entryOf, if_neg hnew]
      exact InterestList.ctl_mod hfd hsome _

theorem Mirrors.step (h : Mirrors d s) {k : κ} {op : InterestOp} (hstep : step d s (k, op) = some t) :
    Mirrors d t := by
  obtain ⟨_, c, hpooling, hchannels, hinterests⟩ := h.step_cases hstep
  constructor
  · intro j
    rw [hchannels]
    by_cases hj : j = k
    · subst hj
      rw [Function.update_self]
      exact hpooling
    · rw [Function.update_of_ne hj]
      exact h.pooling j
  · intro fd r
    rw [hchannels, hinterests]
    by_cases hfd : fd = d.fd k
    · -- Only `k` has this descriptor.
      subst hfd
      rw [Function.update_self, entryOf]
      constructor
      · intro hr
        by_cases hevents : c.events_ = 0
        · simp [hevents] at hr
        · rw [if_neg hevents] at hr
          cases hr
          exact ⟨k, rfl, by rwa [Function.update_self], by rw [Function.update_self]⟩
      · rintro ⟨j, hj, hevents, rfl⟩
        rw [d.distinct hj, Function.update_self] at *
        rw [if_neg hevents]
    · rw [Function.update_of_ne hfd, h.listed]
      constructor
      · rintro ⟨j, rfl, hj⟩
        have hne : j ≠ k := by
          rintro rfl
          exact hfd rfl
        exact ⟨j, rfl, by rwa [Function.update_of_ne hne]⟩
      · rintro ⟨j, rfl, hj⟩
        have hne : j ≠ k := by
          rintro rfl
          exact hfd rfl
        rw [Function.update_of_ne hne] at hj
        exact ⟨j, rfl, hj⟩

theorem along_issuesValid {calls : List (κ × InterestOp)} (h : Mirrors d s)
    (hrun : Run.exec (Polled.step d) s calls = some t) : Run.Along (Polled.step d) (IssuesValid d) s calls := by
  induction calls generalizing s with
  | nil => trivial
  | cons call calls ih =>
    obtain ⟨r, hstep, hrest⟩ := Run.exec_cons_eq_some.mp hrun
    refine ⟨(h.step_cases hstep).1, ?_⟩
    rw [hstep]
    exact ih (h.step hstep) hrest

/-- The poller mirrors the interest of its channels. Under every sequence of interest operations within the assertion
of `updateChannel`, every `epoll_ctl` issued is valid for the list it meets, and after each call the list holds exactly
the channels with events, which are those with the flag set. -/
theorem poller_mirrors_interest (d : Descriptors κ) {calls : List (κ × InterestOp)} {s : Polled κ}
    (hrun : Run.exec (Polled.step d) init calls = some s) :
    Run.Along (Polled.step d) (IssuesValid d) init calls ∧
      (∀ k, (s.channels k).pooling = true ↔ (s.channels k).events_ ≠ 0) ∧
      ∀ fd r, s.interests fd = some r ↔
        ∃ k, d.fd k = fd ∧ (s.channels k).events_ ≠ 0 ∧ r = ⟨(s.channels k).events_, k⟩ := by
  have hmirrors : Mirrors d s := Run.exec_preserves (fun _ _ _ h hstep => h.step hstep) init_mirrors hrun
  exact ⟨along_issuesValid init_mirrors hrun, hmirrors.pooling, hmirrors.listed⟩

/-- Two channels, one deleted by single-bit disables and added again. -/
theorem poller_mirrors_interest_readded :
    ∃ s, Run.exec (Polled.step ⟨fun b : Bool => if b then 4 else 3, by decide, by decide⟩) init
        [(true, .enableWrite), (false, .enableRead), (true, .disableWrite), (true, .enableRead)] = some s ∧
      s.interests 4 = some ⟨EPOLLIN ||| EPOLLPRI, true⟩ ∧ (s.channels true).pooling = true := by
  apply Run.Reaches.exists_of (p := fun s : Polled Bool => (s.channels true).events_ = EPOLLIN ||| EPOLLPRI)
  · decide +kernel
  · intro s hrun hevents
    obtain ⟨_, hpooling, hlisted⟩ := poller_mirrors_interest _ hrun
    have hsome : (s.channels true).events_ ≠ 0 := by
      rw [hevents]
      decide
    refine ⟨(hlisted _ _).mpr ⟨true, rfl, hsome, ?_⟩, (hpooling true).mpr hsome⟩
    rw [hevents]

end Polled

end mudong.ev
