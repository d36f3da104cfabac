import Mudong.TcpClient.Serving

namespace mudong.ev

/-- An attempt whose result has come, with the value of `SO_ERROR` and whether its connector has an
`errorCallback_`, which a connector that has been replaced has not. -/
structure Completion where
  attempt : Nat
  err : Nat
  errorCallback_ : Bool
  deriving DecidableEq, Repr

namespace ClientWorld

/-- The attempt that a step completes: a writable event is dispatched to its connector, be it the current one or a
replaced one. -/
def completions (w : ClientWorld) : ClientLabel → List Completion
  | .event err =>
    match w.loop.phase, w.client.batch with
    | .handling, (.connector attempt, revents) :: _ =>
      if Mask.has revents EPOLLOUT then
        [⟨attempt, err, attempt == w.client.connector_.attempt && w.client.connector_.errorCallback_⟩]
      else []
    | _, _ => []
  | _ => []

/-- The attempt whose connector is given the error callback. -/
def asks (w : ClientWorld) : ClientLabel → List Nat
  | .setErrorCallback => [w.client.connector_.attempt]
  | _ => []

theorem eq_of_mem_asks {w : ClientWorld} {l : ClientLabel} {a : Nat} (ha : a ∈ w.asks l) :
    a = w.client.connector_.attempt := by
  cases l <;> simp_all [asks]

/-- What the reporting of errors depends on. -/
def reporting (c : TcpClient) : List Nat × Nat × Option Nat × Channel :=
  (c.errorCallbacks, c.connector_.attempt, c.retryCallback, c.connector_.channel_)

/-- Everything that a step can do to the reporting of errors. -/
inductive Reporting (w w' : ClientWorld) (l : ClientLabel) : Prop where
  | same (hnone : w.completions l = []) (hsame : reporting w'.client = reporting w.client)
    (hflag : w'.client.connector_.errorCallback_ = true ↔
      w.client.connector_.errorCallback_ = true ∨ w.client.connector_.attempt ∈ w.asks l)
  | start (result : ConnectResult) (timer : Nat) (hl : l = .start result timer) (hnone : w.completions l = [])
    (hfirst : w.client.retryCallback = none)
    (hstart : reporting w'.client =
      (w.client.errorCallbacks, w.client.connector_.attempt, some timer, Channel.awaiting))
    (hflag : w'.client.connector_.errorCallback_ = w.client.connector_.errorCallback_) (hasks : w.asks l = [])
  | retry (hnone : w.completions l = []) (hstarted : w.client.retryCallback ≠ none)
    (hretry : reporting w'.client = (w.client.errorCallbacks, w.client.connector_.attempt + 1,
      w.client.retryCallback, Channel.awaiting))
    (hflag : w'.client.connector_.errorCallback_ = false) (hasks : w.asks l = [])
  | completes (err : Nat)
    (hcompletes : w.completions l = [⟨w.client.connector_.attempt, err, w.client.connector_.errorCallback_⟩])
    (hstarted : w.client.retryCallback ≠ none) (hawaiting : w.client.connector_.channel_ = Channel.awaiting)
    (hcompleted : reporting w'.client = (w.client.errorCallbacks ++
        (if err ≠ 0 ∧ w.client.connector_.errorCallback_ = true then [w.client.connector_.attempt] else []),
      w.client.connector_.attempt, w.client.retryCallback, Channel.init))
    (hflag : w'.client.connector_.errorCallback_ = w.client.connector_.errorCallback_) (hasks : w.asks l = [])

variable {w w' : ClientWorld}

theorem Reporting.unasked {l : ClientLabel} (hnone : w.completions l = []) (hasks : w.asks l = [])
    (hsame : reporting w'.client = reporting w.client)
    (hflag : w'.client.connector_.errorCallback_ = w.client.connector_.errorCallback_) : w.Reporting w' l :=
  .same hnone hsame (by rw [hflag, hasks, or_iff_left List.not_mem_nil])

/-- `errorCallback_` is invoked when it is set and `SO_ERROR` is not zero. -/
theorem handleWrite_reporting (hpending : w.client.Pending) (hsockfd : 0 ≤ w.client.connector_.sockfd_)
    (err : Nat) :
    reporting (w.handleWrite err).client = (w.client.errorCallbacks ++
        (if err ≠ 0 ∧ w.client.connector_.errorCallback_ = true then [w.client.connector_.attempt] else []),
      w.client.connector_.attempt, w.client.retryCallback, Channel.init) := by
  by_cases herr : err = 0
  · subst herr
    obtain ⟨conn, heq⟩ := handleWrite_connected hpending hsockfd
    rw [heq]
    simp [reporting, TcpClient.check]
  · unfold handleWrite
    rw [handleWrite_removed hpending hsockfd]
    dsimp only
    rw [if_pos herr]
    cases w.client.connector_.errorCallback_ <;> simp [reporting, TcpClient.check, herr]

theorem handleWrite_errorCallback (hpending : w.client.Pending) (hsockfd : 0 ≤ w.client.connector_.sockfd_)
    (err : Nat) : (w.handleWrite err).client.connector_.errorCallback_ = w.client.connector_.errorCallback_ := by
  by_cases herr : err = 0
  · subst herr
    obtain ⟨conn, heq⟩ := handleWrite_connected hpending hsockfd
    rw [heq]
  · obtain ⟨errorCallbacks, heq⟩ := handleWrite_failed hpending hsockfd herr
    rw [heq]

/-- What the reporting of errors goes by: the connector that an event finds is the current one, and its attempt is
under way. -/
structure Completing (w : ClientWorld) : Prop where
  handover : w.client.Handover
  serving : w.Serving

/-- The events of connectors find the current one, and the attempts complete asynchronously. -/
def Completes (w : ClientWorld) (l : ClientLabel) : Prop :=
  w.ReadsInTime l ∧ ∀ result ∈ w.connects l, result.inProgress = true

theorem Completing.step {l : ClientLabel} (hinv : w.Completing) (hl : w.Completes l) (hstep : w.step l = some w') :
    w'.Completing :=
  ⟨handover_step hinv.handover hl.2 hstep, (hinv.serving.step hl.1 hstep).1⟩

theorem init_completing (time : Timestamp) (sockfd_ : Nat) : (init time sockfd_).Completing :=
  ⟨handover_init sockfd_, init_serving time sockfd_⟩

/-- The event that completes an attempt finds its connector waiting. -/
theorem handles_reporting {err : Nat} {revents : Events} {rest : List (ClientChannel × Events)}
    (hinv : w.client.Handover) (hphase : w.loop.phase = .handling)
    (hbatch : w.client.batch = (.connector w.client.connector_.attempt, revents) :: rest)
    (hout : Mask.has revents EPOLLOUT = true) : w.Reporting ((w.taken rest).handleWrite err) (.event err) := by
  have hpending := hinv.current (.connector w.client.connector_.attempt, revents) (by simp [hbatch]) rfl
  have htaken : (w.taken rest).client.Pending := hpending.of_same rfl
  refine .completes err (by simp [completions, hphase, hbatch, hout])
    (fun hnone => hpending.not_idle (hinv.unstarted hnone)) hpending.channel_ ?_ ?_ rfl
  · exact handleWrite_reporting htaken hinv.sockfd_ err
  · exact handleWrite_errorCallback htaken hinv.sockfd_ err

theorem completions_ignored {err : Nat} {reported : ClientChannel × Events} {rest : List (ClientChannel × Events)}
    (hbatch : w.client.batch = reported :: rest)
    (hignored : ∀ attempt, reported.1 = .connector attempt → Mask.has reported.2 EPOLLOUT = false) :
    w.completions (.event err) = [] := by
  simp only [completions, hbatch]
  split
  · rename_i attempt revents _ _ hreported
    obtain ⟨rfl, _⟩ := List.cons.inj hreported
    rw [if_neg (by simp [hignored attempt rfl])]
  · rfl

theorem step_reporting {l : ClientLabel} (hcompleting : w.Completing) (hl : w.Completes l)
    (hstep : w.step l = some w') : w.Reporting w' l := by
  have hinv := hcompleting.handover
  have hprogress := hl.2
  cases step_moves hstep with
  | loop => exact .unasked rfl rfl rfl rfl
  | setErrorCallback => exact .same rfl rfl (by simp [asks, TcpClient.setErrorCallback])
  | @start result timer loop hnone huser hloop =>
    have heq := startConnector_inProgress (hinv.unstarted hnone) hinv.sockfd_ (hprogress result (by simp [connects]))
    refine .start result timer rfl rfl hnone ?_ ?_ rfl
    · rw [heq]
      rfl
    · rw [heq]
  | skips => exact .unasked rfl rfl rfl rfl
  | late => exact .unasked rfl rfl rfl rfl
  | @retry sockfd result loop now e expired hphase hcallback hcanceled hconnected hfresh hloop =>
    have hstarted : w.client.retryCallback ≠ none := by simp [hcallback]
    obtain ⟨hrenewed, hidle⟩ := handover_renewed hinv hconnected hstarted loop sockfd
    have hresult := hprogress result (by simp [connects, hphase, hcanceled, hconnected])
    have heq := startConnector_inProgress hidle hrenewed.sockfd_ hresult
    obtain ⟨interestList, descriptors, hnew⟩ := w.renewed_eq loop sockfd
    rw [hnew] at heq
    refine .retry rfl hstarted ?_ ?_ rfl
    · rw [hnew, heq]
      rfl
    · rw [hnew, heq]
      rfl
  | poll => exact .unasked rfl rfl rfl rfl
  | handles hphase hbatch hout => exact handles_reporting hinv hphase hbatch hout
  | ignores hbatch hignored => exact .unasked (completions_ignored hbatch hignored) rfl rfl rfl
  | @dangles err attempt revents rest hbatch hreplaced =>
    exact (hreplaced (hcompleting.serving.current _ (by rw [hbatch]; exact List.mem_cons_self) attempt rfl)).elim
  | closes =>
    rw [TcpClient.close_eq]
    exact .unasked rfl rfl rfl rfl
  | closesAgain => exact .unasked rfl rfl rfl rfl
  | destroys => exact .unasked rfl rfl rfl rfl

/-- The attempts are completed once each, one that is completed does not wait any more, and `errorCallback_` is
invoked for those that find it set. -/
structure Tracked (emitted : List Completion) (w : ClientWorld) : Prop extends Completing w where
  known : ∀ c ∈ emitted, c.attempt ≤ w.client.connector_.attempt
  once : (emitted.map Completion.attempt).Nodup
  awaiting : w.client.connector_.channel_ = Channel.awaiting → ∀ c ∈ emitted, c.attempt ≠ w.client.connector_.attempt
  unstarted : w.client.retryCallback = none → emitted = [] ∧ w.client.connector_.attempt = 0
  callbacks : w.client.errorCallbacks =
    (emitted.filter fun c => decide (c.err ≠ 0 ∧ c.errorCallback_ = true)).map Completion.attempt

theorem Tracked.step {emitted : List Completion} {l : ClientLabel} (h : Tracked emitted w) (hl : w.Completes l)
    (hstep : w.step l = some w') : Tracked (emitted ++ w.completions l) w' := by
  have hcompleting := h.toCompleting.step hl hstep
  cases step_reporting h.toCompleting hl hstep with
  | same hnone hsame hflag =>
    simp only [reporting, Prod.mk.injEq] at hsame
    obtain ⟨hcallbacks, hattempt, hcallback, hchannel⟩ := hsame
    rw [hnone, List.append_nil]
    refine ⟨hcompleting, ?_, h.once, ?_, ?_, hcallbacks.trans h.callbacks⟩
    · rw [hattempt]
      exact h.known
    · rw [hchannel, hattempt]
      exact h.awaiting
    · rw [hcallback, hattempt]
      exact h.unstarted
  | start result timer hl hnone hfirst hstart hflag hasks =>
    simp only [reporting, Prod.mk.injEq] at hstart
    obtain ⟨hcallbacks, _, hcallback, _⟩ := hstart
    obtain ⟨rfl, _⟩ := h.unstarted hfirst
    rw [hnone]
    exact ⟨hcompleting, by simp, by simp, by simp, by simp [hcallback], hcallbacks.trans h.callbacks⟩
  | retry hnone hstarted hretry hflag hasks =>
    simp only [reporting, Prod.mk.injEq] at hretry
    obtain ⟨hcallbacks, hattempt, hcallback, _⟩ := hretry
    rw [hnone, List.append_nil]
    refine ⟨hcompleting, ?_, h.once, ?_, fun hnone => (hstarted (hcallback ▸ hnone)).elim,
      hcallbacks.trans h.callbacks⟩
    · intro c hc
      have hle := h.known c hc
      omega
    · intro _ c hc
      have hle := h.known c hc
      omega
  | completes err hcompletes hstarted hawaiting hcompleted hflag hasks =>
    simp only [reporting, Prod.mk.injEq] at hcompleted
    obtain ⟨hcallbacks, hattempt, hcallback, hchannel⟩ := hcompleted
    rw [hcompletes]
    refine ⟨hcompleting, ?_, ?_, ?_, fun hnone => (hstarted (hcallback ▸ hnone)).elim, ?_⟩
    · rw [hattempt]
      simpa [or_imp, forall_and] using h.known
    · rw [List.map_append, List.nodup_append]
      refine ⟨h.once, by simp, ?_⟩
      intro a ha b hb
      obtain ⟨c, hc, rfl⟩ := List.mem_map.mp ha
      obtain rfl : b = w.client.connector_.attempt := by simpa using hb
      exact h.awaiting hawaiting c hc
    · intro hstill
      rw [hchannel] at hstill
      cases hstill
    · rw [List.filter_append, List.map_append, hcallbacks, h.callbacks]
      congr 1
      by_cases hreports : err ≠ 0 ∧ w.client.connector_.errorCallback_ = true
      · rw [if_pos hreports, List.filter_cons_of_pos (by simpa using hreports)]
        rfl
      · rw [if_neg hreports, List.filter_cons_of_neg (by simpa using hreports)]
        rfl

/-- How often the callback is invoked for an attempt that is completed. -/
theorem Tracked.count {emitted : List Completion} (h : Tracked emitted w) {c : Completion} (hc : c ∈ emitted) :
    w.client.errorCallbacks.count c.attempt = if c.err ≠ 0 ∧ c.errorCallback_ = true then 1 else 0 := by
  rw [h.callbacks]
  split
  · rename_i hreports
    refine List.count_eq_one_of_mem ((List.filter_sublist.map _).nodup h.once) ?_
    exact List.mem_map_of_mem (List.mem_filter.mpr ⟨hc, by simpa using hreports⟩)
  · rename_i hsilent
    refine List.count_eq_zero_of_not_mem fun hmem => ?_
    obtain ⟨c', hc', hattempt⟩ := List.mem_map.mp hmem
    obtain ⟨hc', hreports⟩ := List.mem_filter.mp hc'
    obtain rfl := List.inj_on_of_nodup_map h.once hc' hc hattempt
    exact hsilent (by simpa using hreports)

/-- A connector has an `errorCallback_` exactly if it has been given one itself. -/
structure Asked (asked : List Nat) (w : ClientWorld) : Prop extends Completing w where
  known : ∀ a ∈ asked, a ≤ w.client.connector_.attempt
  flag : w.client.connector_.errorCallback_ = true ↔ w.client.connector_.attempt ∈ asked

theorem Asked.step {asked : List Nat} {l : ClientLabel} (h : Asked asked w) (hl : w.Completes l)
    (hstep : w.step l = some w') : Asked (asked ++ w.asks l) w' := by
  have hcompleting := h.toCompleting.step hl hstep
  cases step_reporting h.toCompleting hl hstep with
  | same hnone hsame hflag =>
    simp only [reporting, Prod.mk.injEq] at hsame
    obtain ⟨_, hattempt, _⟩ := hsame
    refine ⟨hcompleting, ?_, by rw [hattempt, hflag, h.flag, List.mem_append]⟩
    intro a ha
    rw [hattempt]
    rcases List.mem_append.mp ha with ha | ha
    · exact h.known a ha
    · exact (eq_of_mem_asks ha).le
  | start result timer hl hnone hfirst hstart hflag hasks =>
    simp only [reporting, Prod.mk.injEq] at hstart
    obtain ⟨_, hattempt, _⟩ := hstart
    rw [hasks, List.append_nil]
    exact ⟨hcompleting, by rw [hattempt]; exact h.known, by rw [hattempt, hflag]; exact h.flag⟩
  | retry hnone hstarted hretry hflag hasks =>
    simp only [reporting, Prod.mk.injEq] at hretry
    obtain ⟨_, hattempt, _⟩ := hretry
    rw [hasks, List.append_nil]
    refine ⟨hcompleting, ?_, ?_⟩
    · intro a ha
      have hle := h.known a ha
      omega
    · have hnew : w.client.connector_.attempt + 1 ∉ asked := fun hmem => by
        have hle := h.known _ hmem
        omega
      simp [hflag, hattempt, hnew]
  | completes err hcompletes hstarted hawaiting hcompleted hflag hasks =>
    simp only [reporting, Prod.mk.injEq] at hcompleted
    obtain ⟨_, hattempt, _⟩ := hcompleted
    rw [hasks, List.append_nil]
    exact ⟨hcompleting, by rw [hattempt]; exact h.known, by rw [hattempt, hflag]; exact h.flag⟩

theorem init_tracked (time : Timestamp) (sockfd_ : Nat) : Tracked [] (init time sockfd_) := by
  refine ⟨init_completing time sockfd_, ?_, ?_, ?_, ?_, ?_⟩
  all_goals simp [init, TcpClient.init, Connector.init]

theorem init_asked (time : Timestamp) (sockfd_ : Nat) : Asked [] (init time sockfd_) := by
  refine ⟨init_completing time sockfd_, ?_, ?_⟩
  all_goals simp [init, TcpClient.init, Connector.init]

section Runs

variable {time : Timestamp} {sockfd_ : Nat} {labels : List ClientLabel}

theorem exec_tracked (hrun : Run.exec step (init time sockfd_) labels = some w)
    (hcompletes : Run.Along step Completes (init time sockfd_) labels) :
    Tracked (Run.trace step completions (init time sockfd_) labels) w :=
  Run.exec_invariant_trace_along (fun _ _ _ _ h hl hstep => h.step hl hstep)
    (init_tracked time sockfd_) hcompletes hrun

theorem exec_asked (hrun : Run.exec step (init time sockfd_) labels = some w)
    (hcompletes : Run.Along step Completes (init time sockfd_) labels) :
    Asked (Run.trace step asks (init time sockfd_) labels) w :=
  Run.exec_invariant_trace_along (fun _ _ _ _ h hl hstep => h.step hl hstep)
    (init_asked time sockfd_) hcompletes hrun

/-- When the client has been started, the call of `setErrorCallback` before it has configured the first
connector. -/
theorem first_asked (hrun : Run.exec step (init time sockfd_) labels = some w)
    (hset : ∀ before result timer after, labels = before ++ .start result timer :: after →
      .setErrorCallback ∈ before)
    (hcompletes : Run.Along step Completes (init time sockfd_) labels)
    (hstarted : w.client.retryCallback ≠ none) : 0 ∈ Run.trace step asks (init time sockfd_) labels := by
  obtain ⟨before, l, after, t, t', rfl, hbefore, hstep, hnone, hsome⟩ :=
    Run.exec_loses (p := fun w => w.client.retryCallback = none) rfl hstarted hrun
  obtain ⟨hearlier, hlater⟩ := hcompletes.append hbefore
  have htracked := exec_tracked hbefore hearlier
  cases step_reporting htracked.toCompleting (hlater.cons hstep).1 hstep with
  | same _ hsame =>
    simp only [reporting, Prod.mk.injEq] at hsame
    exact (hsome (hsame.2.2.1.trans hnone)).elim
  | start result timer hl =>
    subst hl
    obtain ⟨earlier, later, rfl⟩ := List.append_of_mem (hset before result timer after rfl)
    obtain ⟨r, hr, _⟩ := Run.exec_append_eq_some.mp hbefore
    have hasked : r.client.connector_.attempt ∈
        Run.trace step asks (init time sockfd_) (earlier ++ .setErrorCallback :: later) :=
      Run.mem_trace.mpr ⟨earlier, .setErrorCallback, later, r, rfl, hr, by simp [asks]⟩
    have hzero : r.client.connector_.attempt = 0 := by
      have hle := (exec_asked hbefore hearlier).known _ hasked
      rw [(htracked.unstarted hnone).2] at hle
      exact Nat.le_zero.mp hle
    refine Run.mem_trace.mpr ⟨earlier, .setErrorCallback, later ++ .start result timer :: after, r, by simp, hr, ?_⟩
    simp [asks, hzero]
  | retry _ hstarted => exact (hstarted hnone).elim
  | completes _ _ hstarted => exact (hstarted hnone).elim

theorem completions_asked {before after : List ClientLabel} {l : ClientLabel} {t : ClientWorld} {c : Completion}
    (hrun : Run.exec step (init time sockfd_) (before ++ l :: after) = some w)
    (hset : ∀ earlier result timer later, before ++ l :: after = earlier ++ .start result timer :: later →
      .setErrorCallback ∈ earlier)
    (hcompletes : Run.Along step Completes (init time sockfd_) (before ++ l :: after))
    (ht : Run.exec step (init time sockfd_) before = some t) (hc : c ∈ t.completions l) :
    c.errorCallback_ = true ↔ c.attempt = 0 ∨ c.attempt ∈ Run.trace step asks (init time sockfd_) before := by
  obtain ⟨hearlier, hlater⟩ := hcompletes.append ht
  rw [Run.exec_append ht] at hrun
  obtain ⟨t', hstep, _⟩ := Run.exec_cons_eq_some.mp hrun
  have hasked := exec_asked ht hearlier
  cases step_reporting hasked.toCompleting (hlater.cons hstep).1 hstep with
  | same hnone => simp [hnone] at hc
  | start _ _ _ hnone => simp [hnone] at hc
  | retry hnone => simp [hnone] at hc
  | completes err hcompletes hstarted =>
    obtain rfl : c = _ := List.mem_singleton.mp (hcompletes ▸ hc)
    have hfirst : 0 ∈ Run.trace step asks (init time sockfd_) before := by
      refine first_asked ht (fun earlier result timer later heq => ?_) hearlier hstarted
      exact hset earlier result timer (later ++ l :: after) (by simp [heq])
    dsimp only
    rw [hasked.flag]
    refine ⟨.inr, fun h => h.elim (fun hzero => ?_) id⟩
    rw [hzero]
    exact hfirst

/-- With the error callback set before the start, every connect taking its time and the events of connectors finding
the current one, the callback is invoked once for each attempt that fails, and not for the others, exactly if each
attempt that fails is the first one or `setErrorCallback` has been called anew for its connector. -/
theorem errors_reported_iff (hrun : Run.exec step (init time sockfd_) labels = some w)
    (hset : ∀ before result timer after, labels = before ++ .start result timer :: after →
      .setErrorCallback ∈ before)
    (hprogress : Run.Along step (fun w l => ∀ result ∈ w.connects l, result.inProgress = true) (init time sockfd_)
      labels)
    (hreads : Run.Along step ReadsInTime (init time sockfd_) labels) :
    (∀ c ∈ Run.trace step completions (init time sockfd_) labels,
        w.client.errorCallbacks.count c.attempt = if c.err = 0 then 0 else 1) ↔
      ∀ before l after t, labels = before ++ l :: after → Run.exec step (init time sockfd_) before = some t →
        ∀ c ∈ t.completions l, c.err ≠ 0 →
          c.attempt = 0 ∨ c.attempt ∈ Run.trace step asks (init time sockfd_) before := by
  have hcompletes : Run.Along step Completes (init time sockfd_) labels := hreads.and hprogress
  have htracked := exec_tracked hrun hcompletes
  constructor
  · rintro hall before l after t rfl ht c hc herr
    have hmem : c ∈ Run.trace step completions (init time sockfd_) (before ++ l :: after) :=
      Run.mem_trace.mpr ⟨before, l, after, t, rfl, ht, hc⟩
    have hcount := htracked.count hmem
    rw [hall c hmem, if_neg herr] at hcount
    refine (completions_asked hrun hset hcompletes ht hc).mp ?_
    by_contra hunset
    simp [hunset] at hcount
  · intro hasked c hc
    rw [htracked.count hc]
    obtain ⟨before, l, after, t, rfl, ht, hc⟩ := Run.mem_trace.mp hc
    by_cases herr : c.err = 0
    · rw [if_pos herr, if_neg (by simp [herr])]
    · have hcallback := (completions_asked hrun hset hcompletes ht hc).mpr (hasked before l after t rfl ht c hc herr)
      rw [if_neg herr, if_pos ⟨herr, hcallback⟩]

end Runs

/-- A run whose first attempt is refused, until the second one is under way. -/
def refused : List ClientLabel :=
  [.setErrorCallback, .start (.failed EINPROGRESS) 1, .loop .swap, .loop .endTasks,
    .poll [(7, EPOLLOUT ||| EPOLLERR ||| EPOLLHUP)], .event ECONNREFUSED, .loop .swap, .loop .endTasks,
    .loop (.tick 3000000000), .poll [], .loop .handleRead, .retry 8 (.failed EINPROGRESS), .loop .settle,
    .loop .endRead, .loop .swap, .loop .endTasks]

private theorem set_before_start {labels before after : List ClientLabel} {result : ConnectResult} {timer : Nat}
    (heq : refused ++ labels = before ++ .start result timer :: after) : .setErrorCallback ∈ before := by
  cases before with
  | nil => cases heq
  | cons l before =>
    obtain ⟨rfl, _⟩ := List.cons.inj heq
    exact List.mem_cons_self

/-- The second attempt succeeds. -/
theorem errors_reported_success :
    ∃ w, Run.exec step (init 0 7) (refused ++ [.poll [(8, EPOLLOUT)], .event 0]) = some w ∧
      w.client.errorCallbacks = [0] ∧ w.client.connected_ = true ∧
      ∀ c ∈ Run.trace step completions (init 0 7) (refused ++ [.poll [(8, EPOLLOUT)], .event 0]),
        w.client.errorCallbacks.count c.attempt = if c.err = 0 then 0 else 1 := by
  apply Run.Reaches.exists_of (p := fun w => w.client.errorCallbacks = [0] ∧ w.client.connected_ = true)
  · decide +kernel
  · rintro w hrun ⟨hcallbacks, hconnected⟩
    refine ⟨hcallbacks, hconnected, ?_⟩
    refine (errors_reported_iff hrun (fun _ _ _ _ => set_before_start) (by decide +kernel)
      (by decide +kernel)).mpr ?_
    intro before l after t heq ht c hc herr
    have hfirst : ∀ c ∈ Run.trace step completions (init 0 7) (refused ++ [.poll [(8, EPOLLOUT)], .event 0]),
        c.err ≠ 0 → c.attempt = 0 := by decide +kernel
    exact .inl (hfirst c (Run.mem_trace.mpr ⟨before, l, after, t, heq, ht, hc⟩) herr)

/-- The second attempt is refused too, and it is not reported. -/
theorem second_error_unreported :
    ∃ w, Run.exec step (init 0 7)
        (refused ++ [.poll [(8, EPOLLOUT ||| EPOLLERR ||| EPOLLHUP)], .event ECONNREFUSED]) = some w ∧
      Run.trace step completions (init 0 7)
          (refused ++ [.poll [(8, EPOLLOUT ||| EPOLLERR ||| EPOLLHUP)], .event ECONNREFUSED]) =
        [⟨0, ECONNREFUSED, true⟩, ⟨1, ECONNREFUSED, false⟩] ∧
      w.client.errorCallbacks.count 0 = 1 ∧ w.client.errorCallbacks.count 1 = 0 := by
  apply Run.Reaches.exists
  decide +kernel

end ClientWorld

end mudong.ev
