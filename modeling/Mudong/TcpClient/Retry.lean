import Mudong.TcpClient.Handover
import Mudong.TimerQueue.Undisturbed

namespace mudong.ev

/-- The timer that `newConnection` found existed, and its callback was not being executed. -/
def NewConnection.TimerValid (n : NewConnection) : Prop :=
  n.timer ≠ nullptr ∧ n.status = .live ∧ n.executing ≠ some n.timer

namespace ClientWorld

/-- What the client makes of its timer: it cancels a valid one, which is gone afterwards, and no run of `retry` finds
the client connected. -/
structure RetryTimerValid (w : ClientWorld) : Prop where
  valid : ∀ n ∈ w.client.newConnections, n.TimerValid
  gone : w.client.newConnections ≠ [] → ∀ timer, w.client.retryCallback = some timer →
    w.loop.status timer ≠ .live ∧ w.loop.entriesOf timer = []
  never : true ∉ w.client.retries

/-- The invariant: the timer runs undisturbed until the client is connected, and is gone from then on. -/
structure Retrying (w : ClientWorld) : Prop where
  handover : w.client.Handover
  known : w.loop.Known
  unstarted : w.client.retryCallback = none → w.client.retryTimer_ = nullptr
  waiting : w.client.connected_ = false → w.client.newConnections = [] ∧
    ∀ timer, w.client.retryCallback = some timer →
      w.client.retryTimer_ = timer ∧ timer ≠ nullptr ∧ w.loop.Undisturbed timer
  connected : w.client.connected_ = true → ∀ timer, w.client.retryCallback = some timer → w.loop.Discarded timer
  valid : ∀ n ∈ w.client.newConnections, n.TimerValid
  never : true ∉ w.client.retries

variable {w w' : ClientWorld}

theorem Retrying.retryTimerValid (hinv : w.Retrying) : w.RetryTimerValid := by
  refine ⟨hinv.valid, fun hnew timer hcallback => ?_, hinv.never⟩
  cases hconnected : w.client.connected_ with
  | false => exact (hnew (hinv.waiting hconnected).1).elim
  | true =>
    have hdiscarded := hinv.connected hconnected timer hcallback
    exact ⟨by simp [hdiscarded.deleted], hdiscarded.entries⟩

/-- What the invariant says of the client besides the handover. -/
def retrying (c : TcpClient) : Bool × List NewConnection × Option Nat × Nat :=
  (c.connected_, c.newConnections, c.retryCallback, c.retryTimer_)

/-- The loop goes on and does not touch the timer. -/
theorem Retrying.of_same (hinv : w.Retrying) (hhandover : w'.client.Handover) (hknown : w'.loop.Known)
    (hloop : ∀ timer, w.client.retryCallback = some timer →
      (w.loop.Undisturbed timer → w'.loop.Undisturbed timer) ∧ (w.loop.Discarded timer → w'.loop.Discarded timer))
    (hsame : retrying w'.client = retrying w.client) (hnever : true ∉ w'.client.retries) : w'.Retrying := by
  simp only [retrying, Prod.mk.injEq] at hsame
  obtain ⟨hconnected, hnew, hcallback, htimer⟩ := hsame
  refine ⟨hhandover, hknown, ?_, ?_, ?_, ?_, hnever⟩
  · rw [hcallback, htimer]
    exact hinv.unstarted
  · rw [hconnected, hnew, hcallback, htimer]
    intro hfalse
    obtain ⟨hnone, htimer⟩ := hinv.waiting hfalse
    refine ⟨hnone, fun timer hsome => ?_⟩
    obtain ⟨heq, hne, hundisturbed⟩ := htimer timer hsome
    exact ⟨heq, hne, (hloop timer hsome).1 hundisturbed⟩
  · rw [hconnected, hcallback]
    exact fun htrue timer hsome => (hloop timer hsome).2 (hinv.connected htrue timer hsome)
  · rw [hnew]
    exact hinv.valid

/-- A step of the loop that does not cancel the timer of the client. -/
theorem Retrying.loop_step (hinv : w.Retrying) {l : TimerLabel} {loop : TimerWorld} (hloop : w.loop.step l = some loop)
    (hspares : ∀ timer, w.client.retryCallback = some timer → l.Spares timer) :
    loop.Known ∧ ∀ timer, w.client.retryCallback = some timer →
      (w.loop.Undisturbed timer → loop.Undisturbed timer) ∧ (w.loop.Discarded timer → loop.Discarded timer) :=
  ⟨hinv.known.step hloop, fun timer hcallback =>
    ⟨fun h => h.step (hspares timer hcallback) hloop, fun h => h.step (hspares timer hcallback) hloop⟩⟩

/-- A callback of the timer that is about to be run finds the timer undisturbed and the client unconnected. -/
theorem Retrying.expiring (hinv : w.Retrying) {now : Timestamp} {e : Entry} {expired : List Entry}
    (hphase : w.loop.phase = .expiring now (e :: expired)) (hcallback : w.client.retryCallback = some e.second) :
    w.client.connected_ = false ∧ w.loop.Undisturbed e.second := by
  have hmem : e ∈ w.loop.entriesOf e.second := by simp [TimerWorld.entriesOf, hphase, TimerPhase.entries]
  cases hconnected : w.client.connected_ with
  | false => exact ⟨rfl, ((hinv.waiting hconnected).2 e.second hcallback).2.2⟩
  | true =>
    rw [(hinv.connected hconnected e.second hcallback).entries] at hmem
    cases hmem

/-- `newConnection` outside the dispatch of timers finds the timer and leaves nothing of it. -/
theorem retrying_handleWrite (hinv : w.Retrying) (hphase : w.loop.phase = .handling) (hpending : w.client.Pending)
    (err : Nat) (hhandover : (w.handleWrite err).client.Handover) : (w.handleWrite err).Retrying := by
  obtain ⟨hnone, hwaiting⟩ := hinv.waiting hpending.connected_
  by_cases herr : err = 0
  · subst herr
    obtain ⟨timer, hcallback⟩ := Option.ne_none_iff_exists'.mp
      fun h => hpending.not_idle (hinv.handover.unstarted h)
    obtain ⟨htimer, hne, hundisturbed⟩ := hwaiting timer hcallback
    have hcancel : w.loop.step (.cancelTimer timer) = some (cancelTimer w.loop timer) := by
      rw [TimerWorld.step, if_pos ⟨by rw [hphase]; rfl, by simp [hundisturbed.live]⟩]
      rfl
    obtain ⟨conn, heq⟩ := handleWrite_connected hpending hinv.handover.sockfd_
    rw [heq, htimer] at hhandover ⊢
    refine ⟨hhandover, hinv.known.step hcancel, fun _ => rfl, ?_, ?_, ?_, hinv.never⟩
    · intro hconnected
      cases hconnected
    · intro _ timer' hcallback'
      obtain rfl : timer = timer' := Option.some.inj (hcallback.symm.trans hcallback')
      exact hundisturbed.cancelTimer (by rw [hphase]; rfl) hcancel
    · intro n hn
      simp only [hnone, List.nil_append, List.mem_singleton] at hn
      subst hn
      exact ⟨hne, hundisturbed.live, by simp [hphase, TimerPhase.executing]⟩
  · obtain ⟨errorCallbacks, heq⟩ := handleWrite_failed hpending hinv.handover.sockfd_ herr
    rw [heq] at hhandover ⊢
    exact hinv.of_same hhandover hinv.known (fun _ _ => ⟨id, id⟩) rfl hinv.never

/-- The other users of the loop do not have the timer of the client. -/
theorem permits_spares {l : TimerLabel} (hpermits : w.permits l = true) {timer : Nat}
    (hcallback : w.client.retryCallback = some timer) : l.Spares timer := by
  constructor
  · rintro rfl
    simp [permits, hcallback] at hpermits
  · rintro rfl
    simp [permits, hcallback] at hpermits

/-- `start` adds the timer when its attempt is under way. -/
theorem retrying_start (hinv : w.Retrying) (hnone : w.client.retryCallback = none) {result : ConnectResult}
    (hprogress : result.inProgress = true) {timer : Nat} {loop : TimerWorld}
    (hloop : (w.startConnector result).loop.step
      (.addTimer timer ((w.startConnector result).loop.time + 3000000000) 3000000000) = some loop)
    (hhandover : ({ (w.startConnector result).client with
      retryTimer_ := timer, retryCallback := some timer } : TcpClient).Handover) :
    (ClientWorld.mk loop { (w.startConnector result).client with
      retryTimer_ := timer, retryCallback := some timer }).Retrying := by
  have hidle := hinv.handover.unstarted hnone
  rw [startConnector_inProgress hidle hinv.handover.sockfd_ hprogress] at hloop hhandover ⊢
  have hne : timer ≠ nullptr := by
    simp only [TimerWorld.step, Option.ite_none_right_eq_some] at hloop
    exact hloop.1.2.1
  refine ⟨hhandover, hinv.known.step hloop, by simp, fun _ => ⟨(hinv.waiting hidle.connected_).1, ?_⟩, ?_, hinv.valid,
    hinv.never⟩
  · intro timer' hcallback
    obtain rfl : timer = timer' := Option.some.inj hcallback
    exact ⟨rfl, hne, hinv.known.addTimer (by decide) hloop⟩
  · intro hconnected
    cases hidle.connected_.symm.trans hconnected

/-- The steps of a client whose attempts all take their time keep the invariant. -/
theorem retrying_step {l : ClientLabel} (hinv : w.Retrying)
    (hprogress : ∀ result ∈ w.connects l, result.inProgress = true) (hstep : w.step l = some w') : w'.Retrying := by
  have hhandover := handover_step hinv.handover hprogress hstep
  have hsame {c' : TcpClient} (hc' : c'.Handover) (hsame : retrying c' = retrying w.client)
      (hnever : c'.retries = w.client.retries) : (ClientWorld.mk w.loop c').Retrying :=
    hinv.of_same hc' hinv.known (fun _ _ => ⟨id, id⟩) hsame (by rw [hnever]; exact hinv.never)
  cases step_moves hstep with
  | loop hpermits hloop =>
    obtain ⟨hknown, hkept⟩ := hinv.loop_step hloop fun timer => permits_spares hpermits
    exact hinv.of_same hhandover hknown hkept rfl hinv.never
  | setErrorCallback => exact hsame hhandover rfl rfl
  | @start result timer loop hnone huser hloop =>
    exact retrying_start hinv hnone (hprogress result (by simp [connects])) hloop hhandover
  | skips hphase hcallback hcanceled =>
    rw [(hinv.expiring hphase hcallback).2.repeats.2] at hcanceled
    cases hcanceled
  | late hphase hcallback hconnected =>
    rw [(hinv.expiring hphase hcallback).1] at hconnected
    cases hconnected
  | @retry sockfd result loop now e expired hphase hcallback hcanceled hconnected hfresh hloop =>
    obtain ⟨hknown, hkept⟩ := hinv.loop_step hloop fun timer _ => ⟨by simp, by simp⟩
    obtain ⟨hrenewed, hidle⟩ := handover_renewed hinv.handover hconnected (by simp [hcallback]) loop sockfd
    have hresult := hprogress result (by simp [connects, hphase, hcanceled, hconnected])
    obtain ⟨interestList, descriptors, heq⟩ := w.renewed_eq loop sockfd
    rw [startConnector_inProgress hidle hrenewed.sockfd_ hresult, heq] at hhandover ⊢
    refine hinv.of_same hhandover hknown hkept rfl ?_
    simpa [TcpClient.check, hconnected] using hinv.never
  | poll hbatch hnodup hloop =>
    obtain ⟨hknown, hkept⟩ := hinv.loop_step hloop fun timer _ => ⟨by simp, by simp⟩
    exact hinv.of_same hhandover hknown hkept rfl hinv.never
  | @handles err revents rest hphase hbatch hout =>
    have hpending := hinv.handover.current (.connector w.client.connector_.attempt, revents) (by simp [hbatch]) rfl
    have htaken : (w.taken rest).client.Handover :=
      hinv.handover.of_same rfl id (by simp [taken, hbatch])
        ⟨hinv.handover.handsOver.asserts, hinv.handover.handsOver.unshared⟩
    exact retrying_handleWrite (hsame htaken rfl rfl) hphase (hpending.of_same rfl) err hhandover
  | ignores => exact hsame hhandover rfl rfl
  | dangles => exact hsame hhandover rfl rfl
  | closes =>
    rw [TcpClient.close_eq] at hhandover ⊢
    exact hsame hhandover rfl rfl
  | closesAgain => exact hsame hhandover rfl rfl
  | destroys => exact hsame hhandover rfl rfl

/-- A connect that returns at once runs `newConnection` inside `Connector::start`. -/
theorem startConnector_record {result : ConnectResult} (himmediate : ¬result.inProgress = true) :
    ∃ n : NewConnection, (w.startConnector result).client.newConnections = w.client.newConnections ++ [n] ∧
      n.timer = w.client.retryTimer_ ∧ n.executing = w.loop.phase.executing := by
  unfold startConnector
  dsimp only
  rw [if_neg himmediate]
  unfold handleWrite
  dsimp only
  rw [if_neg (by simp)]
  exact ⟨_, rfl, rfl, rfl⟩

/-- In `start` there is no timer yet, and in `retry` the timer is the one whose callback is being executed. -/
theorem retrying_breaks {l : ClientLabel} (hinv : w.Retrying)
    (himmediate : ∃ result ∈ w.connects l, ¬result.inProgress = true) (hstep : w.step l = some w') :
    ¬∀ n ∈ w'.client.newConnections, n.TimerValid := by
  obtain ⟨immediate, hmem, hreturned⟩ := himmediate
  intro hvalid
  cases step_moves hstep with
  | @start result timer loop hnone huser hloop =>
    obtain rfl : immediate = result := by simpa [connects] using hmem
    obtain ⟨n, hnew, htimer, _⟩ := startConnector_record (w := w) hreturned
    have hn := hvalid n (by simp [hnew])
    exact hn.1 (htimer.trans (hinv.unstarted hnone))
  | skips hphase hcallback hcanceled => simp [connects, hphase, hcanceled] at hmem
  | late hphase hcallback hconnected => simp [connects, hphase, hconnected] at hmem
  | @retry sockfd result loop now e expired hphase hcallback hcanceled hconnected hfresh hloop hcalling =>
    obtain rfl : immediate = result := by simpa [connects, hphase, hcanceled, hconnected] using hmem
    obtain ⟨n, hnew, htimer, hexecuting⟩ := startConnector_record (w := w.renewed loop sockfd) hreturned
    have hn := hvalid n (by simp [hnew])
    obtain ⟨interestList, descriptors, heq⟩ := w.renewed_eq loop sockfd
    have hretryTimer : w.client.retryTimer_ = e.second := ((hinv.waiting hconnected).2 e.second hcallback).1
    rw [heq] at htimer hexecuting
    refine hn.2.2 ?_
    rw [hexecuting, htimer, hretryTimer, hcalling]
    rfl
  | _ => cases hmem

/-- The record of `newConnection` only grows. -/
theorem step_newConnections {l : ClientLabel} (hstep : w.step l = some w') :
    w.client.newConnections <+: w'.client.newConnections := by
  have hhandleWrite (w : ClientWorld) (err : Nat) :
      w.client.newConnections <+: (w.handleWrite err).client.newConnections := by
    unfold handleWrite
    dsimp only
    split
    · exact List.prefix_refl _
    · exact List.prefix_append _ _
  have hstart (w : ClientWorld) (result : ConnectResult) :
      w.client.newConnections <+: (w.startConnector result).client.newConnections := by
    by_cases hprogress : result.inProgress = true
    · simp only [startConnector, if_pos hprogress]
      exact List.prefix_refl _
    · obtain ⟨n, hnew, _⟩ := startConnector_record (w := w) hprogress
      rw [hnew]
      exact List.prefix_append _ _
  cases step_moves hstep with
  | @start result timer loop hnone huser hloop => exact hstart w result
  | @retry sockfd result loop =>
    obtain ⟨interestList, descriptors, heq⟩ := w.renewed_eq loop sockfd
    have hrenewed := hstart (w.renewed loop sockfd) result
    rw [heq] at hrenewed ⊢
    exact hrenewed
  | @handles err revents rest => exact hhandleWrite (w.taken rest) err
  | closes => rw [TcpClient.close_eq]
  | _ => exact List.prefix_refl _

theorem init_retrying (time : Timestamp) (sockfd_ : Nat) : (init time sockfd_).Retrying := by
  refine ⟨handover_init sockfd_, ?_, fun _ => rfl, ?_, ?_, ?_, ?_⟩
  · exact fun timer _ => ⟨rfl, by simp [TimerWorld.Unnamed, init, TimerWorld.init, EventLoop.init]⟩
  all_goals simp [init, TcpClient.init]

/-- Along a run the timer of the client is valid when it is cancelled, and gone afterwards, exactly if every connect
takes its time. -/
theorem retryTimerValid_iff {time : Timestamp} {sockfd_ : Nat} {labels : List ClientLabel} {w : ClientWorld}
    (hrun : Run.exec step (init time sockfd_) labels = some w) :
    w.RetryTimerValid ↔
      ∀ result ∈ Run.trace step connects (init time sockfd_) labels, result.inProgress = true := by
  refine Run.exec_iff_trace (I := Retrying) (B := fun w => ¬∀ n ∈ w.client.newConnections, n.TimerValid)
    (fun _ _ _ => retrying_step) (fun _ _ _ => retrying_breaks) ?_ (fun _ hinv => hinv.retryTimerValid)
    (fun _ hbroken hvalid => hbroken hvalid.valid) (init_retrying time sockfd_) hrun
  intro w l w' hbroken hstep hvalid
  exact hbroken fun n hn => hvalid n ((step_newConnections hstep).subset hn)

/-- The first attempt is refused, and the second one, made when the timer expires, is connected. -/
theorem retryTimerValid_second_attempt :
    ∃ w, Run.exec step (init 0 7)
        [.start (.failed EINPROGRESS) 1, .loop .swap, .loop .endTasks, .poll [(7, EPOLLOUT ||| EPOLLERR)],
          .event ECONNREFUSED, .loop .swap, .loop .endTasks, .loop (.tick 3000000000), .poll [], .loop .handleRead,
          .retry 8 (.failed EINPROGRESS), .loop .settle, .loop .endRead, .loop .swap, .loop .endTasks,
          .poll [(8, EPOLLOUT)], .event 0] = some w ∧
      w.client.newConnections.map NewConnection.timer = [1] ∧ w.client.retries = [false] ∧ w.RetryTimerValid := by
  apply Run.Reaches.exists_of
    (p := fun w => w.client.newConnections.map NewConnection.timer = [1] ∧ w.client.retries = [false])
  · decide
  · rintro w hrun ⟨htimer, hretries⟩
    exact ⟨htimer, hretries, (retryTimerValid_iff hrun).mpr (by decide)⟩

/-- A connect that returns `0` at once makes `newConnection` cancel the null pointer in `start`, and in `retry` the
timer whose callback is being executed. -/
theorem retryTimer_immediate :
    (∃ w, Run.exec step (init 0 7) [.start .connected 1] = some w ∧
      w.client.newConnections.map NewConnection.timer = [nullptr] ∧ w.loop.misuses.head? = some (nullptr, .cancel) ∧
      ¬w.RetryTimerValid) ∧
    ∃ w, Run.exec step (init 0 7)
        [.start (.failed EINPROGRESS) 1, .loop .swap, .loop .endTasks, .loop (.tick 3000000000), .poll [],
          .loop .handleRead, .retry 8 .connected] = some w ∧
      w.client.newConnections.map (fun n => (n.timer, n.executing)) = [(1, some 1)] ∧ ¬w.RetryTimerValid := by
  constructor
  · have hreaches : Run.Reaches step (init 0 7) [.start .connected 1]
        (fun w => w.client.newConnections.map NewConnection.timer = [nullptr] ∧
          w.loop.misuses.head? = some (nullptr, .cancel)) := by decide
    obtain ⟨w, hrun, htimer, hmisuses⟩ := hreaches.exists
    refine ⟨w, hrun, htimer, hmisuses, fun hvalid => ?_⟩
    obtain ⟨n, hn, hnull⟩ := List.mem_map.mp (htimer ▸ List.mem_singleton_self nullptr)
    exact (hvalid.valid n hn).1 hnull
  · have hreaches : Run.Reaches step (init 0 7)
        [.start (.failed EINPROGRESS) 1, .loop .swap, .loop .endTasks, .loop (.tick 3000000000), .poll [],
          .loop .handleRead, .retry 8 .connected]
        (fun w => w.client.newConnections.map (fun n => (n.timer, n.executing)) = [(1, some 1)]) := by decide
    obtain ⟨w, hrun, hexecuting⟩ := hreaches.exists
    refine ⟨w, hrun, hexecuting, fun hvalid => ?_⟩
    obtain ⟨n, hn, hpair⟩ := List.mem_map.mp (hexecuting ▸ List.mem_singleton_self (1, some 1))
    obtain ⟨htimer, hexecuted⟩ := Prod.mk.inj hpair
    exact (hvalid.valid n hn).2.2 (by rw [htimer, hexecuted])

end ClientWorld

end mudong.ev
