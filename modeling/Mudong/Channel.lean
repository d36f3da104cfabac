import Mudong.Lib.Mask

namespace mudong.ev

abbrev Events : Type := BitVec 32

def EPOLLIN : Events := 0x001
def EPOLLPRI : Events := 0x002
def EPOLLOUT : Events := 0x004
def EPOLLERR : Events := 0x008
def EPOLLHUP : Events := 0x010
def EPOLLRDHUP : Events := 0x2000

structure Channel where
  pooling : Bool
  events_ : Events
  revents_ : Events
  handlingEvents_ : Bool
  deriving DecidableEq, Repr

namespace Channel

def init : Channel := { pooling := false, events_ := 0, revents_ := 0, handlingEvents_ := false }

def isNoneEvents (c : Channel) : Bool := c.events_ == 0
def isReading (c : Channel) : Bool := Mask.has c.events_ EPOLLIN
def isWriting (c : Channel) : Bool := Mask.has c.events_ EPOLLOUT

end Channel

/-- What the interest operations of `Channel` do to `events_` before they call `update()`. -/
inductive InterestOp where
  | enableRead
  | enableWrite
  | disableRead
  | disableWrite
  | disableAll
  deriving DecidableEq, Repr

def InterestOp.apply (events_ : Events) : InterestOp → Events
  | .enableRead => events_ ||| (EPOLLIN ||| EPOLLPRI)
  | .enableWrite => events_ ||| EPOLLOUT
  | .disableRead => events_ &&& ~~~EPOLLIN
  | .disableWrite => events_ &&& ~~~EPOLLOUT
  | .disableAll => 0

inductive EpollOp where
  | EPOLL_CTL_ADD
  | EPOLL_CTL_MOD
  | EPOLL_CTL_DEL
  deriving DecidableEq, Repr

/-- The kernel's interest entry of one descriptor after `epoll_ctl`. Adding a present descriptor and
changing or deleting an absent one fail and leave the entry as it is. -/
def epoll_ctl (entry : Option Events) (op : EpollOp) (events : Events) : Option Events :=
  match op, entry with
  | .EPOLL_CTL_ADD, none => some events
  | .EPOLL_CTL_MOD, some _ => some events
  | .EPOLL_CTL_DEL, some _ => none
  | _, entry => entry

namespace EPollPoller

/-- `updateChannel`: the channel with its new `pooling` flag and the operation handed to `epoll_ctl`. -/
def updateChannel (c : Channel) : Channel × EpollOp :=
  if !c.pooling then ({ c with pooling := true }, .EPOLL_CTL_ADD)
  else if !c.isNoneEvents then (c, .EPOLL_CTL_MOD)
  else ({ c with pooling := false }, .EPOLL_CTL_DEL)

/-- The assertion of `updateChannel`: an unregistered channel has events to register. -/
def UpdateAsserts (c : Channel) : Prop := c.pooling = true ∨ c.isNoneEvents = false

instance (c : Channel) : Decidable (UpdateAsserts c) := inferInstanceAs (Decidable (_ ∨ _))

@[simp] theorem updateChannel_events_ (c : Channel) : (updateChannel c).1.events_ = c.events_ := by
  unfold updateChannel
  split
  · rfl
  · split <;> rfl

@[simp] theorem updateChannel_revents_ (c : Channel) : (updateChannel c).1.revents_ = c.revents_ := by
  unfold updateChannel
  split
  · rfl
  · split <;> rfl

/-- A channel with events is registered afterwards. -/
theorem updateChannel_pooling {c : Channel} (h : c.isNoneEvents = false) : (updateChannel c).1.pooling = true := by
  cases hpooling : c.pooling with
  | false => simp [updateChannel, hpooling]
  | true => simp [updateChannel, hpooling, h]

/-- The flag tells whether the kernel has an entry, whatever interest that entry had before: afterwards it
has exactly the channel's interest. -/
theorem updateChannel_mirrors {c : Channel} {entry : Option Events} (h : entry.isSome = c.pooling) :
    epoll_ctl entry (updateChannel c).2 (updateChannel c).1.events_ =
      if (updateChannel c).1.pooling then some c.events_ else none := by
  cases hpooling : c.pooling with
  | false =>
    have hnone : entry = none := by simpa [hpooling] using h
    simp [updateChannel, hpooling, hnone, epoll_ctl]
  | true =>
    obtain ⟨old, hold⟩ := Option.isSome_iff_exists.mp (h.trans hpooling)
    by_cases hevents : c.isNoneEvents = true
    · simp [updateChannel, hpooling, hevents, hold, epoll_ctl]
    · simp [updateChannel, hpooling, hevents, hold, epoll_ctl]

end EPollPoller

/-- The masks `epoll_wait` may report for an entry: its registered interest and the two conditions that are
always reported. -/
def Reportable (entry : Option Events) (revents : Events) : Prop :=
  entry.elim False fun events => Mask.Within revents (events ||| EPOLLERR ||| EPOLLHUP)

instance (entry : Option Events) (revents : Events) : Decidable (Reportable entry revents) :=
  match entry with
  | none => inferInstanceAs (Decidable False)
  | some _ => inferInstanceAs (Decidable (Mask.Within _ _))

/-- Of what is not always reported, a report holds nothing but what is asked for. -/
theorem reported_has {events revents f : Events} (hwithin : Mask.Within revents (events ||| EPOLLERR ||| EPOLLHUP))
    (halways : Mask.has (EPOLLERR ||| EPOLLHUP) f = false) (hf : Mask.has revents f = true) :
    Mask.has events f = true := by
  have hbit := hwithin.has hf
  rwa [BitVec.or_assoc, Mask.has_or, halways, Bool.or_false] at hbit

namespace InterestOp

@[simp] theorem has_out_enableRead (e : Events) :
    Mask.has (InterestOp.enableRead.apply e) EPOLLOUT = Mask.has e EPOLLOUT := by
  have hread : Mask.has (EPOLLIN ||| EPOLLPRI) EPOLLOUT = false := by decide
  rw [apply, Mask.has_or, hread, Bool.or_false]

@[simp] theorem has_out_enableWrite (e : Events) :
    Mask.has (InterestOp.enableWrite.apply e) EPOLLOUT = true := by
  have hwrite : Mask.has EPOLLOUT EPOLLOUT = true := by decide
  rw [apply, Mask.has_or, hwrite, Bool.or_true]

@[simp] theorem has_out_disableRead (e : Events) :
    Mask.has (InterestOp.disableRead.apply e) EPOLLOUT = Mask.has e EPOLLOUT :=
  Mask.has_clear_of_disjoint e (by decide)

@[simp] theorem has_out_disableWrite (e : Events) :
    Mask.has (InterestOp.disableWrite.apply e) EPOLLOUT = false := Mask.has_clear_self e EPOLLOUT

/-- Nothing but `disableAll` withdraws the interest in urgent data; `disableRead` does not. -/
theorem has_pri {op : InterestOp} (hop : op ≠ .disableAll) {e : Events} (h : Mask.has e EPOLLPRI = true) :
    Mask.has (op.apply e) EPOLLPRI = true := by
  cases op with
  | enableRead => rw [apply, Mask.has_or, h, Bool.true_or]
  | enableWrite => rw [apply, Mask.has_or, h, Bool.true_or]
  | disableRead => exact (Mask.has_clear_of_disjoint e (by decide)).trans h
  | disableWrite => exact (Mask.has_clear_of_disjoint e (by decide)).trans h
  | disableAll => exact (hop rfl).elim

/-- The interests reachable through the operations other than `disableAll`. -/
def Reached (events_ : Events) : Prop :=
  ∃ ops : List InterestOp, InterestOp.disableAll ∉ ops ∧ ops.foldl InterestOp.apply 0 = events_

/-- No operation asks for `EPOLLRDHUP`. -/
theorem Reached.not_rdhup {events_ : Events} (h : Reached events_) : Mask.has events_ EPOLLRDHUP = false := by
  have hstep (op : InterestOp) {e : Events} (he : Mask.has e EPOLLRDHUP = false) :
      Mask.has (op.apply e) EPOLLRDHUP = false := by
    cases op with
    | enableRead => rw [apply, Mask.has_or, he]; decide
    | enableWrite => rw [apply, Mask.has_or, he]; decide
    | disableRead => exact (Mask.has_clear_of_disjoint e (by decide)).trans he
    | disableWrite => exact (Mask.has_clear_of_disjoint e (by decide)).trans he
    | disableAll => exact Mask.has_zero _
  have hrun (ops : List InterestOp) {e : Events} (he : Mask.has e EPOLLRDHUP = false) :
      Mask.has (ops.foldl InterestOp.apply e) EPOLLRDHUP = false := by
    induction ops generalizing e with
    | nil => exact he
    | cons op ops ih => exact ih (hstep op he)
  obtain ⟨ops, _, rfl⟩ := h
  exact hrun ops (Mask.has_zero _)

end InterestOp

/-- The channel is registered, with interest in urgent data at least. -/
def Channel.Armed (c : Channel) : Prop := c.pooling = true ∧ Mask.has c.events_ EPOLLPRI = true

theorem EPollPoller.updateChannel_armed {c : Channel} (h : c.Armed) {op : InterestOp} (hop : op ≠ .disableAll) :
    (updateChannel { c with events_ := op.apply c.events_ }).1.Armed := by
  have hpri := InterestOp.has_pri hop h.2
  have hsome : op.apply c.events_ ≠ 0 := by
    intro hzero
    rw [hzero, Mask.has_zero] at hpri
    cases hpri
  have hupdate : updateChannel { c with events_ := op.apply c.events_ } =
      ({ c with events_ := op.apply c.events_ }, .EPOLL_CTL_MOD) := by
    simpa [updateChannel, h.1, Channel.isNoneEvents] using hsome
  rw [hupdate]
  exact ⟨h.1, hpri⟩

end mudong.ev
