import Mudong.EPollPoller.Mirror
import Mudong.Lib.RoundRobin

namespace mudong.ev

/-- The most events that `epoll_wait` can be asked for, `INT_MAX / sizeof(epoll_event)`. Up to there the conversion of
the size of `events_` to an `int` is exact. -/
def EP_MAX_EVENTS : Nat := (2 ^ 31 - 1) / 12

/-- The poller of a loop with its channels: the size of `events_`, the loop's `activeChannels_`, and the ready list of
the epoll instance, in the order in which `epoll_wait` goes through it. -/
structure Poller (κ : Type) extends Polled κ where
  events_ : Nat
  activeChannels : List κ
  ready : List κ

/-- What happens to a poller: an interest operation on a channel, whose descriptor is in some condition at that time;
news for a descriptor; `loop()` polls while the descriptors are in some condition; and `epoll_wait` fails, as it always
does when `events_` has become longer than it accepts. -/
inductive PollLabel (κ : Type) where
  | interest (k : κ) (op : InterestOp) (condition : Events)
  | news (k : κ) (condition : Events)
  | poll (condition : κ → Events)
  | interrupted

namespace Poller

variable {κ : Type}

def init : Poller κ := { Polled.init with events_ := 128, activeChannels := [], ready := [] }

/-- What `epoll_wait` reports of a channel whose descriptor is in this condition, if anything. -/
def answer (p : Poller κ) (condition : κ → Events) (k : κ) : Option Events :=
  let revents := condition k &&& ((p.channels k).events_ ||| EPOLLERR ||| EPOLLHUP)
  if revents = 0 then none else some revents

/-- How the poller sees its channels. -/
def registration (p : Poller κ) (k : κ) : Bool × Events := ((p.channels k).pooling, (p.channels k).events_)

variable [DecidableEq κ]

/-- The kernel puts a channel at the end of the ready list, if it has something to report and is not there yet. -/
def enqueue (p : Poller κ) (k : κ) (condition : Events) : Poller κ :=
  if (p.channels k).events_ ≠ 0 ∧ (p.answer (fun _ => condition) k).isSome ∧ k ∉ p.ready then
    { p with ready := p.ready ++ [k] }
  else p

/-- One turn of the loop in `poll`. -/
def activate (p : Poller κ) (event : κ × Events) : Poller κ :=
  { p with
    channels := Function.update p.channels event.1 { p.channels event.1 with revents_ := event.2 }
    activeChannels := p.activeChannels ++ [event.1] }

/-- `poll` with what `epoll_wait` has returned: the events, or nothing where it has failed. -/
def poll (p : Poller κ) (result : Option (List (κ × Events))) : Poller κ :=
  match result with
  | none => p
  | some events =>
    if 0 < events.length then
      let polled := events.foldl activate p
      if events.length = p.events_ then { polled with events_ := 2 * p.events_ } else polled
    else p

/-- What `epoll_wait` reports. -/
def reported (p : Poller κ) (condition : κ → Events) : List (κ × Events) :=
  (RoundRobin.scan (p.answer condition) p.events_ p.ready).1

/-- A channel that leaves the interest list leaves the ready list. A channel that was reported stays ready, behind those
that were not reached. Where nothing is reported, `epoll_wait` goes on waiting. -/
def step (d : Descriptors κ) (p : Poller κ) : PollLabel κ → Option (Poller κ)
  | .interest k op condition =>
    (p.toPolled.step d (k, op)).map fun polled =>
      let p : Poller κ := { p with toPolled := polled }
      if (p.channels k).events_ = 0 then { p with ready := p.ready.filter (· ≠ k) } else p.enqueue k condition
  | .news k condition => some (p.enqueue k condition)
  | .poll condition =>
    if p.events_ ≤ EP_MAX_EVENTS then
      some { Poller.poll { p with activeChannels := [] } (some (p.reported condition)) with
        ready := RoundRobin.turn (p.answer condition) p.events_ p.ready }
    else none
  | .interrupted => some (Poller.poll { p with activeChannels := [] } none)

/-- The channels that a poll reports. -/
def reports (p : Poller κ) : PollLabel κ → List κ
  | .poll condition => (p.reported condition).map Prod.fst
  | _ => []

theorem registration_activate (p : Poller κ) (event : κ × Events) :
    (p.activate event).registration = p.registration := by
  funext k
  by_cases hk : k = event.1
  · subst hk
    simp [registration, activate]
  · simp [registration, activate, hk]

theorem foldl_activate (events : List (κ × Events)) (p : Poller κ) :
    (events.foldl activate p).registration = p.registration ∧
      (events.foldl activate p).interests = p.interests ∧
      (events.foldl activate p).events_ = p.events_ ∧
      (events.foldl activate p).activeChannels = p.activeChannels ++ events.map Prod.fst := by
  induction events generalizing p with
  | nil => simp
  | cons event events ih =>
    obtain ⟨hregistration, hinterests, hsize, hactive⟩ := ih (p.activate event)
    refine ⟨hregistration.trans (registration_activate p event), hinterests, hsize, ?_⟩
    rw [List.foldl_cons, hactive]
    simp [activate]

/-- Channels that are not among the events are not touched. -/
theorem channels_foldl_of_notMem {events : List (κ × Events)} {k : κ} (hk : k ∉ events.map Prod.fst) (p : Poller κ) :
    (events.foldl activate p).channels k = p.channels k := by
  induction events generalizing p with
  | nil => rfl
  | cons event events ih =>
    rw [List.map_cons, List.mem_cons, not_or] at hk
    rw [List.foldl_cons, ih hk.2]
    exact Function.update_of_ne hk.1 _ _

theorem revents_foldl {events : List (κ × Events)} (hnodup : (events.map Prod.fst).Nodup) {k : κ} {revents : Events}
    (hk : (k, revents) ∈ events) (p : Poller κ) : ((events.foldl activate p).channels k).revents_ = revents := by
  induction events generalizing p with
  | nil => cases hk
  | cons event events ih =>
    rw [List.map_cons, List.nodup_cons] at hnodup
    rw [List.foldl_cons]
    obtain rfl | hk := List.mem_cons.mp hk
    · rw [channels_foldl_of_notMem hnodup.1]
      simp [activate]
    · exact ih hnodup.2 hk _

/-- `epoll_wait` succeeds as long as it accepts the size of `events_`. -/
theorem exists_step_poll (d : Descriptors κ) {p : Poller κ} (hroom : p.events_ ≤ EP_MAX_EVENTS)
    (condition : κ → Events) : ∃ q, step d p (.poll condition) = some q :=
  ⟨_, if_pos hroom⟩

/-- What a poll does. -/
structure Polls (p : Poller κ) (condition : κ → Events) (q : Poller κ) : Prop where
  registration : q.registration = p.registration
  interests : q.interests = p.interests
  activeChannels : q.activeChannels = (p.reported condition).map Prod.fst
  events_ : q.events_ =
    if 0 < (p.reported condition).length ∧ (p.reported condition).length = p.events_ then 2 * p.events_ else p.events_
  ready : q.ready = RoundRobin.turn (p.answer condition) p.events_ p.ready
  channels : q.channels = ((p.reported condition).foldl activate { p with activeChannels := [] }).channels

theorem step_poll {d : Descriptors κ} {p q : Poller κ} {condition : κ → Events}
    (hstep : step d p (.poll condition) = some q) : Polls p condition q := by
  obtain ⟨hregistration, hinterests, hsize, hactive⟩ :=
    foldl_activate (p.reported condition) { p with activeChannels := [] }
  simp only [step, Option.ite_none_right_eq_some, Option.some.injEq] at hstep
  obtain ⟨_, rfl⟩ := hstep
  by_cases hsome : 0 < (p.reported condition).length
  · by_cases hfull : (p.reported condition).length = p.events_
    · have hpoll : Poller.poll { p with activeChannels := [] } (some (p.reported condition)) =
          { (p.reported condition).foldl activate { p with activeChannels := [] } with events_ := 2 * p.events_ } := by
        rw [poll]
        simp only [if_pos hsome, if_pos hfull]
      rw [hpoll]
      exact ⟨hregistration, hinterests, hactive, by rw [if_pos ⟨hsome, hfull⟩], rfl, rfl⟩
    · have hpoll : Poller.poll { p with activeChannels := [] } (some (p.reported condition)) =
          (p.reported condition).foldl activate { p with activeChannels := [] } := by
        rw [poll]
        simp only [if_pos hsome, if_neg hfull]
      rw [hpoll]
      exact ⟨hregistration, hinterests, hactive, by rw [if_neg fun h => hfull h.2, hsize], rfl, rfl⟩
  · have hnil : p.reported condition = [] := List.length_eq_zero_iff.mp (by omega)
    have hpoll : Poller.poll { p with activeChannels := [] } (some (p.reported condition)) =
        { p with activeChannels := [] } := by
      rw [poll]
      simp only [if_neg hsome]
    rw [hpoll]
    refine ⟨rfl, rfl, by rw [hnil]; rfl, by rw [if_neg fun h => hsome h.1], rfl, by rw [hnil]; rfl⟩

/-- An interest operation changes the events of its channel and of no other. -/
theorem channels_interest {d : Descriptors κ} {s t : Polled κ} {k : κ} {op : InterestOp}
    (hstep : Polled.step d s (k, op) = some t) :
    (t.channels k).events_ = op.apply (s.channels k).events_ ∧ ∀ j ≠ k, t.channels j = s.channels j := by
  simp only [Polled.step] at hstep
  split at hstep
  · cases hstep
    refine ⟨?_, fun j hj => Function.update_of_ne hj _ _⟩
    simp [InterestList.interest]
  · cases hstep

end Poller

end mudong.ev
