import Mathlib.Logic.Function.Basic
import Mudong.Channel

namespace mudong.ev

/-- What the interest list of an epoll instance holds for a descriptor: the events and, in `data.ptr`, the
channel they are reported to. -/
structure Registration (κ : Type) where
  events : Events
  channel : κ
  deriving DecidableEq, Repr

/-- The interest list, by descriptor. -/
abbrev InterestList (κ : Type) : Type := Int → Option (Registration κ)

namespace InterestList

variable {κ : Type}

def empty : InterestList κ := fun _ => none

/-- `epoll_ctl`. A bad descriptor is refused, and so are the addition of a present one and the change or the
deletion of an absent one. -/
def ctl (list : InterestList κ) (op : EpollOp) (fd : Int) (r : Registration κ) : InterestList κ :=
  if fd < 0 then list
  else
    match op, list fd with
    | .EPOLL_CTL_ADD, none => Function.update list fd (some r)
    | .EPOLL_CTL_MOD, some _ => Function.update list fd (some r)
    | .EPOLL_CTL_DEL, some _ => Function.update list fd none
    | _, _ => list

/-- `::close(fd)` drops the descriptor from the list. -/
def close (list : InterestList κ) (fd : Int) : InterestList κ := Function.update list fd none

/-- An interest operation of the channel `name` on `fd`, down to `epoll_ctl`: the channel afterwards, and the
list. -/
def interest (list : InterestList κ) (fd : Int) (name : κ) (channel_ : Channel) (op : InterestOp) :
    Channel × InterestList κ :=
  let updated := EPollPoller.updateChannel { channel_ with events_ := op.apply channel_.events_ }
  (updated.1, list.ctl updated.2 fd ⟨updated.1.events_, name⟩)

/-- An operation on one descriptor does not touch the others. -/
theorem ctl_of_ne (list : InterestList κ) {fd fd' : Int} (hne : fd' ≠ fd) (op : EpollOp) (r : Registration κ) :
    list.ctl op fd r fd' = list fd' := by
  unfold ctl
  split
  · rfl
  · cases op <;> cases list fd <;> simp [Function.update_of_ne hne]

/-- What is left after a close belongs to other descriptors. -/
theorem close_eq_some {list : InterestList κ} {fd fd' : Int} {r : Registration κ} :
    list.close fd fd' = some r ↔ fd' ≠ fd ∧ list fd' = some r := by
  by_cases hfd : fd' = fd
  · subst hfd
    simp [close]
  · simp [close, hfd]

theorem ctl_add {list : InterestList κ} {fd : Int} (hfd : 0 ≤ fd) (hnone : list fd = none) (r : Registration κ) :
    list.ctl .EPOLL_CTL_ADD fd r = Function.update list fd (some r) := by
  simp only [ctl, if_neg (not_lt.mpr hfd), hnone]

theorem ctl_mod {list : InterestList κ} {fd : Int} {old : Registration κ} (hfd : 0 ≤ fd) (hsome : list fd = some old)
    (r : Registration κ) : list.ctl .EPOLL_CTL_MOD fd r = Function.update list fd (some r) := by
  simp only [ctl, if_neg (not_lt.mpr hfd), hsome]

theorem ctl_del {list : InterestList κ} {fd : Int} {old : Registration κ} (hfd : 0 ≤ fd) (hsome : list fd = some old)
    (r : Registration κ) : list.ctl .EPOLL_CTL_DEL fd r = Function.update list fd none := by
  simp only [ctl, if_neg (not_lt.mpr hfd), hsome]

/-- What `epoll_ctl` leaves in the list was there before or is what it was given. -/
theorem ctl_eq_some {list : InterestList κ} {op : EpollOp} {fd fd' : Int} {r r' : Registration κ}
    (h : list.ctl op fd r fd' = some r') : list fd' = some r' ∨ r' = r := by
  by_cases hfd : fd' = fd
  · subst hfd
    unfold ctl at h
    split at h
    · exact .inl h
    · cases op <;> cases hold : list fd' <;> simp_all
  · rw [ctl_of_ne list hfd] at h
    exact .inl h

end InterestList

end mudong.ev
