import Mudong.EPollPoller.Poll

namespace mudong.ev

namespace Poller

variable {κ : Type}

/-- The interest list mirrors the channels; the ready list holds registered channels, none of them twice; and there is
room for an event. -/
structure Valid (d : Descriptors κ) (p : Poller κ) : Prop where
  mirrors : Polled.Mirrors d p.toPolled
  nodup : p.ready.Nodup
  watched : ∀ k ∈ p.ready, (p.channels k).events_ ≠ 0
  room : 0 < p.events_

theorem init_valid (d : Descriptors κ) : Valid d init where
  mirrors := Polled.init_mirrors
  nodup := List.nodup_nil
  watched := by simp [init]
  room := Nat.zero_lt_succ 127

/-- Nothing of the channels counts for the mirror but what the poller sees of them. -/
theorem mirrors_congr {d : Descriptors κ} {p q : Poller κ} (h : Polled.Mirrors d p.toPolled)
    (hregistration : q.registration = p.registration) (hinterests : q.interests = p.interests) :
    Polled.Mirrors d q.toPolled := by
  have hpooling (k : κ) : (q.channels k).pooling = (p.channels k).pooling :=
    congrArg Prod.fst (congrFun hregistration k)
  have hevents (k : κ) : (q.channels k).events_ = (p.channels k).events_ :=
    congrArg Prod.snd (congrFun hregistration k)
  constructor
  · intro k
    rw [hpooling, hevents]
    exact h.pooling k
  · intro fd r
    simp only [hinterests, hevents]
    exact h.listed fd r

/-- What is reported of a channel is what it is watched for, and not nothing. -/
theorem answer_eq_some {p : Poller κ} {condition : κ → Events} {k : κ} {revents : Events}
    (h : p.answer condition k = some revents) :
    revents ≠ 0 ∧ revents = condition k &&& ((p.channels k).events_ ||| EPOLLERR ||| EPOLLHUP) := by
  simp only [answer] at h
  split at h
  · cases h
  · rename_i hsome
    cases h
    exact ⟨hsome, rfl⟩

variable [DecidableEq κ]

theorem Valid.enqueue {d : Descriptors κ} {p : Poller κ} (h : Valid d p) (k : κ) (condition : Events) :
    Valid d (p.enqueue k condition) := by
  unfold Poller.enqueue
  split
  · rename_i hnews
    obtain ⟨hevents, -, hnew⟩ := hnews
    refine ⟨h.mirrors, ?_, ?_, h.room⟩
    · change (p.ready ++ [k]).Nodup
      rw [← List.concat_eq_append]
      exact h.nodup.concat hnew
    · intro j hj
      obtain hj | hj := List.mem_append.mp hj
      · exact h.watched j hj
      · rw [List.mem_singleton.mp hj]
        exact hevents
  · exact h

theorem Valid.step {d : Descriptors κ} {p q : Poller κ} {l : PollLabel κ} (h : Valid d p)
    (hstep : Poller.step d p l = some q) : Valid d q := by
  cases l with
  | interest k op condition =>
    simp only [Poller.step, Option.map_eq_some_iff] at hstep
    obtain ⟨t, ht, rfl⟩ := hstep
    have hmirrors : Polled.Mirrors d t := h.mirrors.step ht
    obtain ⟨-, hothers⟩ := channels_interest ht
    have hwatched (j : κ) (hj : j ∈ p.ready) (hne : j ≠ k) : (t.channels j).events_ ≠ 0 := by
      rw [hothers j hne]
      exact h.watched j hj
    split
    · refine ⟨hmirrors, h.nodup.filter _, ?_, h.room⟩
      intro j hj
      obtain ⟨hj, hne⟩ := List.mem_filter.mp hj
      exact hwatched j hj (of_decide_eq_true hne)
    · rename_i hevents
      refine Valid.enqueue (p := { p with toPolled := t }) ⟨hmirrors, h.nodup, ?_, h.room⟩ k condition
      intro j hj
      by_cases hne : j = k
      · rw [hne]
        exact hevents
      · exact hwatched j hj hne
  | news k condition =>
    cases hstep
    exact h.enqueue k condition
  | poll condition =>
    have hpolls := step_poll hstep
    refine ⟨mirrors_congr h.mirrors hpolls.registration hpolls.interests, ?_, ?_, ?_⟩
    · rw [hpolls.ready]
      exact RoundRobin.nodup_turn h.nodup
    · intro k hk
      rw [hpolls.ready] at hk
      have hevents : (q.channels k).events_ = (p.channels k).events_ :=
        congrArg Prod.snd (congrFun hpolls.registration k)
      rw [hevents]
      exact h.watched k (RoundRobin.mem_of_mem_turn hk)
    · have hroom := h.room
      rw [hpolls.events_]
      split <;> omega
  | interrupted =>
    cases hstep
    exact ⟨h.mirrors, h.nodup, h.watched, h.room⟩

theorem reachable_valid {d : Descriptors κ} {ls : List (PollLabel κ)} {p : Poller κ}
    (hrun : Run.exec (step d) init ls = some p) : Valid d p :=
  Run.exec_preserves (fun _ _ _ h hstep => h.step hstep) (init_valid d) hrun

theorem events_enqueue (p : Poller κ) (k : κ) (condition : Events) : (p.enqueue k condition).events_ = p.events_ := by
  unfold enqueue
  split <;> rfl

/-- Only a poll that fills `events_` changes its size. -/
theorem step_events {d : Descriptors κ} {p q : Poller κ} {l : PollLabel κ} (hstep : step d p l = some q) :
    q.events_ = p.events_ ∨ q.events_ = 2 * (p.reports l).length := by
  cases l with
  | interest k op condition =>
    simp only [step, Option.map_eq_some_iff] at hstep
    obtain ⟨t, -, rfl⟩ := hstep
    split
    · exact .inl rfl
    · exact .inl (events_enqueue _ k condition)
  | news k condition =>
    cases hstep
    exact .inl (events_enqueue p k condition)
  | poll condition =>
    rw [(step_poll hstep).events_, reports, List.length_map]
    split
    · rename_i hfull
      exact .inr (by rw [hfull.2])
    · exact .inl rfl
  | interrupted =>
    cases hstep
    exact .inl rfl

/-- `events_` has its first size, or is twice as long as one of the batches was. -/
theorem events_along {d : Descriptors κ} {ls : List (PollLabel κ)} {p : Poller κ}
    (hrun : Run.exec (step d) init ls = some p) :
    p.events_ = 128 ∨
      ∃ n ∈ Run.trace (step d) (fun p l => [(p.reports l).length]) init ls, p.events_ = 2 * n := by
  have hinit : (init : Poller κ).events_ = 128 ∨ ∃ n ∈ [], (init : Poller κ).events_ = 2 * n := .inl rfl
  refine Run.exec_invariant_trace (I := fun batches p => p.events_ = 128 ∨ ∃ n ∈ batches, p.events_ = 2 * n) ?_
    hinit hrun
  intro batches p l q hp hstep
  obtain hsame | hgrown := step_events hstep
  · rw [hsame]
    obtain hfirst | ⟨n, hn, hsize⟩ := hp
    · exact .inl hfirst
    · exact .inr ⟨n, List.mem_append_left _ hn, hsize⟩
  · exact .inr ⟨_, List.mem_append_right _ List.mem_cons_self, hgrown⟩

/-- The batch of a poll. In every run `poll` hands the loop the first of the ready channels that have something to
report, as many as fit into `events_`: registered channels, none of them twice, each with its own events and the two
that are always reported in `revents_`; other channels are not touched, and who has something to report stays ready.
And `events_` has its first size or twice that of a batch of the run. -/
theorem poll_batch (d : Descriptors κ) {ls : List (PollLabel κ)} {p q : Poller κ} {condition : κ → Events}
    (hrun : Run.exec (step d) init ls = some p) (hpoll : step d p (.poll condition) = some q) :
    q.activeChannels = (p.ready.filter fun k => (p.answer condition k).isSome).take p.events_ ∧
      q.activeChannels.Nodup ∧
      (∀ k ∈ q.activeChannels, q.interests (d.fd k) = some ⟨(q.channels k).events_, k⟩ ∧
        (q.channels k).revents_ ≠ 0 ∧
        (q.channels k).revents_ = condition k &&& ((q.channels k).events_ ||| EPOLLERR ||| EPOLLHUP)) ∧
      (∀ k, k ∉ q.activeChannels → q.channels k = p.channels k) ∧
      (∀ k ∈ p.ready, (p.answer condition k).isSome → k ∈ q.ready) ∧
      (q.events_ = 128 ∨ ∃ n ∈ Run.trace (step d) (fun p l => [(p.reports l).length]) init (ls ++ [.poll condition]),
        q.events_ = 2 * n) := by
  have hvalid := reachable_valid hrun
  have hpolls := step_poll hpoll
  have hrun' : Run.exec (step d) init (ls ++ [.poll condition]) = some q := by
    rw [Run.exec_append hrun, Run.exec_cons_eq_some]
    exact ⟨q, hpoll, rfl⟩
  have hnodup : ((p.reported condition).map Prod.fst).Nodup :=
    (hvalid.nodup.sublist (RoundRobin.scan_sublist _ _)).of_append_left
  have hevents (k : κ) : (q.channels k).events_ = (p.channels k).events_ :=
    congrArg Prod.snd (congrFun hpolls.registration k)
  refine ⟨?_, hpolls.activeChannels ▸ hnodup, ?_, ?_, ?_, events_along hrun'⟩
  · rw [hpolls.activeChannels]
    exact RoundRobin.map_scan _ _
  · intro k hk
    rw [hpolls.activeChannels, List.mem_map] at hk
    obtain ⟨⟨k, revents⟩, hreported, rfl⟩ := hk
    have hrevents : (q.channels k).revents_ = revents := by
      rw [hpolls.channels]
      exact revents_foldl hnodup hreported _
    have hready : k ∈ p.ready := (RoundRobin.scan_sublist _ _).subset
      (List.mem_append_left _ (List.mem_map_of_mem hreported))
    obtain ⟨hsome, hmask⟩ := answer_eq_some (RoundRobin.answer_of_mem_scan hreported)
    refine ⟨?_, hrevents ▸ hsome, by rw [hrevents, hevents, hmask]⟩
    rw [hpolls.interests, hevents]
    exact hvalid.mirrors.entry (hvalid.watched k hready)
  · intro k hk
    rw [hpolls.activeChannels] at hk
    rw [hpolls.channels, channels_foldl_of_notMem hk]
  · intro k hk hanswer
    rw [hpolls.ready]
    exact RoundRobin.mem_turn hanswer hk

/-- A batch of one channel of two. -/
theorem poll_batch_single :
    ∃ p q, Run.exec (step ⟨fun b : Bool => if b then 4 else 3, by decide, by decide⟩) init
        [.interest false .enableRead EPOLLIN, .interest true .enableWrite EPOLLOUT] = some p ∧
      step ⟨fun b : Bool => if b then 4 else 3, by decide, by decide⟩ p (.poll fun b => if b then EPOLLOUT else 0) =
        some q ∧
      q.activeChannels.Nodup ∧ q.activeChannels = [true] ∧ q.channels false = p.channels false := by
  have hreach : Run.Reaches (step ⟨fun b : Bool => if b then 4 else 3, by decide, by decide⟩) init
      [.interest false .enableRead EPOLLIN, .interest true .enableWrite EPOLLOUT] fun p =>
        p.events_ = 128 ∧
          (p.ready.filter fun k => (p.answer (fun b => if b then EPOLLOUT else 0) k).isSome).take p.events_ =
            [true] := by
    decide +kernel
  obtain ⟨p, hrun, hsize, hbatch⟩ := hreach.exists
  have hroom : p.events_ ≤ EP_MAX_EVENTS := by
    rw [hsize]
    decide
  obtain ⟨q, hpoll⟩ := exists_step_poll ⟨fun b : Bool => if b then 4 else 3, by decide, by decide⟩ hroom _
  obtain ⟨hactive, hnodup, -, hothers, -⟩ := poll_batch _ hrun hpoll
  refine ⟨p, q, hrun, hpoll, hnodup, hactive.trans hbatch, hothers false ?_⟩
  rw [hactive, hbatch]
  decide

end Poller

end mudong.ev
