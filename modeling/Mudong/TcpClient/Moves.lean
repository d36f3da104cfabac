import Mudong.TcpClient

namespace mudong.ev

namespace ClientWorld

/-- What `connect` returns to the attempt that a step makes. A callback of a cancelled timer is not run, and
`retry` makes no attempt when the client is connected. -/
def connects (w : ClientWorld) : ClientLabel → List ConnectResult
  | .start result _ => [result]
  | .retry _ result =>
    match w.loop.phase with
    | .expiring _ (e :: _) => if (w.loop.object e.second).canceled_ || w.client.connected_ then [] else [result]
    | _ => []
  | _ => []

/-- The world in which `retry` starts its new connector. -/
def renewed (w : ClientWorld) (loop : TimerWorld) (sockfd : Nat) : ClientWorld :=
  { loop
    client := TcpClient.replaceConnector { w.client with retries := w.client.retries ++ [w.client.connected_] } sockfd }

/-- The next reported event has been taken. -/
def taken (w : ClientWorld) (rest : List (ClientChannel × Events)) : ClientWorld :=
  { w with client := { w.client with batch := rest } }

/-- Everything a step can be, with what the client makes of it. -/
inductive Moves (w : ClientWorld) : ClientLabel → ClientWorld → Prop where
  | loop {l : TimerLabel} {loop : TimerWorld} (hpermits : w.permits l = true) (hloop : w.loop.step l = some loop) :
      Moves w (.loop l) { w with loop }
  | setErrorCallback : Moves w .setErrorCallback { w with client := w.client.setErrorCallback }
  | start {result : ConnectResult} {timer : Nat} {loop : TimerWorld} (hnone : w.client.retryCallback = none)
      (huser : w.loop.phase.inUserCode = true)
      (hloop : (w.startConnector result).loop.step
        (.addTimer timer ((w.startConnector result).loop.time + 3000000000) 3000000000) = some loop) :
      Moves w (.start result timer)
        { loop, client := { (w.startConnector result).client with retryTimer_ := timer, retryCallback := some timer } }
  | skips {sockfd : Nat} {result : ConnectResult} {loop : TimerWorld} {now : Timestamp} {e : Entry}
      {expired : List Entry} (hphase : w.loop.phase = .expiring now (e :: expired))
      (hcallback : w.client.retryCallback = some e.second) (hcanceled : (w.loop.object e.second).canceled_ = true)
      (hloop : w.loop.step .fire = some loop) : Moves w (.retry sockfd result) { w with loop }
  | late {sockfd : Nat} {result : ConnectResult} {loop : TimerWorld} {now : Timestamp} {e : Entry}
      {expired : List Entry} (hphase : w.loop.phase = .expiring now (e :: expired))
      (hcallback : w.client.retryCallback = some e.second) (hconnected : w.client.connected_ = true)
      (hloop : w.loop.step .fire = some loop) :
      Moves w (.retry sockfd result)
        { loop, client := { w.client with retries := w.client.retries ++ [w.client.connected_] } }
  | retry {sockfd : Nat} {result : ConnectResult} {loop : TimerWorld} {now : Timestamp} {e : Entry}
      {expired : List Entry} (hphase : w.loop.phase = .expiring now (e :: expired))
      (hcallback : w.client.retryCallback = some e.second) (hcanceled : (w.loop.object e.second).canceled_ = false)
      (hconnected : w.client.connected_ = false) (hfresh : (sockfd : Int) ∉ w.client.descriptors)
      (hloop : w.loop.step .fire = some loop) (hcalling : loop.phase = .calling now e expired true) :
      Moves w (.retry sockfd result) ((w.renewed loop sockfd).startConnector result)
  | poll {ready : List (Int × Events)} {batch : List (ClientChannel × Events)} {loop : TimerWorld}
      (hbatch : ready.mapM w.client.report = some batch) (hnodup : (batch.map Prod.fst).Nodup)
      (hloop : w.loop.step .poll = some loop) : Moves w (.poll ready) { loop, client := { w.client with batch } }
  | handles {err : Nat} {revents : Events} {rest : List (ClientChannel × Events)} (hphase : w.loop.phase = .handling)
      (hbatch : w.client.batch = (.connector w.client.connector_.attempt, revents) :: rest)
      (hout : Mask.has revents EPOLLOUT = true) : Moves w (.event err) ((w.taken rest).handleWrite err)
  | ignores {err : Nat} {reported : ClientChannel × Events} {rest : List (ClientChannel × Events)}
      (hbatch : w.client.batch = reported :: rest)
      (hignored : ∀ attempt, reported.1 = .connector attempt → Mask.has reported.2 EPOLLOUT = false) :
      Moves w (.event err) (w.taken rest)
  | dangles {err attempt : Nat} {revents : Events} {rest : List (ClientChannel × Events)}
      (hbatch : w.client.batch = (.connector attempt, revents) :: rest)
      (hreplaced : attempt ≠ w.client.connector_.attempt) :
      Moves w (.event err)
        { w with client := { (w.taken rest).client with dangling := w.client.dangling ++ [attempt] } }
  | closes {conn : ClientConn} (hconn : w.client.connection_ = some conn) :
      Moves w .closeConnection { w with client := (w.client.handleClose conn).closeConnection }
  | closesAgain (hnone : w.client.connection_ = none) (hleaving : w.client.leaving ≠ []) :
      Moves w .closeConnection { w with client := w.client.closeConnection }
  | destroys {conn : ClientConn} {rest : List ClientConn} (hleaving : w.client.leaving = conn :: rest) :
      Moves w .destroyConnection { w with client := { w.client.destroyConnection conn with leaving := rest } }

/-- `fire` goes on to the callback of the timer, unless the timer is cancelled. -/
theorem fire_phase {w w' : TimerWorld} {now : Timestamp} {e : Entry} {rest : List Entry}
    (hphase : w.phase = .expiring now (e :: rest)) (hstep : w.step .fire = some w') :
    w'.phase = .calling now e rest (!(w.object e.second).canceled_) := by
  simp only [TimerWorld.step, hphase, Option.some.injEq] at hstep
  rw [← hstep]
  cases hcanceled : (w.object e.second).canceled_ <;>
    simp [TimerQueue.fireTimer, TimerQueue.access, TimerQueue.check, hcanceled]

private theorem act_retry_moves {w w' : ClientWorld} {sockfd : Nat} {result : ConnectResult}
    (hstep : w.act (.retry sockfd result) = some w') : w.Moves (.retry sockfd result) w' := by
  simp only [act] at hstep
  split at hstep
  · rename_i now e expired hphase
    simp only [Option.ite_none_right_eq_some, Option.bind_eq_some_iff] at hstep
    obtain ⟨hcallback, loop, hloop, hstep⟩ := hstep
    have hcalling := fire_phase hphase hloop
    rw [hcalling, TimerPhase.inUserCode] at hstep
    cases hcanceled : (w.loop.object e.second).canceled_ with
    | true =>
      rw [hcanceled] at hstep
      cases hstep
      exact .skips hphase hcallback hcanceled hloop
    | false =>
      rw [hcanceled] at hcalling hstep
      simp only [ClientWorld.retry, Bool.not_false, if_true] at hstep
      split at hstep
      · rename_i hconnected
        cases hstep
        exact .late hphase hcallback hconnected hloop
      · rename_i hconnected
        simp only [Option.ite_none_left_eq_some, Option.some.injEq] at hstep
        obtain ⟨hfresh, rfl⟩ := hstep
        exact .retry hphase hcallback hcanceled (Bool.eq_false_iff.mpr hconnected) hfresh hloop hcalling
  · cases hstep

private theorem act_event_moves {w w' : ClientWorld} {err : Nat} (hstep : w.act (.event err) = some w') :
    w.Moves (.event err) w' := by
  simp only [act] at hstep
  split at hstep
  · rename_i reported rest hphase hbatch
    cases hstep
    obtain ⟨channel, revents⟩ := reported
    cases channel with
    | connector attempt =>
      simp only [dispatch]
      split
      · rename_i hattempt
        subst hattempt
        split
        · rename_i hout
          exact .handles hphase hbatch hout
        · rename_i hout
          exact .ignores hbatch fun _ _ => Bool.eq_false_iff.mpr hout
      · rename_i hreplaced
        exact .dangles hbatch hreplaced
    | connection attempt => exact .ignores hbatch fun _ hname => by cases hname
  · cases hstep

theorem act_moves {w w' : ClientWorld} {l : ClientLabel} (hstep : w.act l = some w') : w.Moves l w' := by
  cases l with
  | loop l =>
    simp only [act, Option.ite_none_right_eq_some, Option.map_eq_some_iff] at hstep
    obtain ⟨hpermits, loop, hloop, rfl⟩ := hstep
    exact .loop hpermits hloop
  | setErrorCallback =>
    cases hstep
    exact .setErrorCallback
  | start result timer =>
    simp only [act, ClientWorld.start, Option.ite_none_right_eq_some, Option.map_eq_some_iff] at hstep
    obtain ⟨⟨huser, hnone⟩, loop, hloop, rfl⟩ := hstep
    exact .start hnone huser hloop
  | retry sockfd result => exact act_retry_moves hstep
  | poll ready =>
    simp only [act, Option.bind_eq_some_iff, Option.ite_none_right_eq_some, Option.map_eq_some_iff] at hstep
    obtain ⟨batch, hbatch, hnodup, loop, hloop, rfl⟩ := hstep
    exact .poll hbatch hnodup hloop
  | event err => exact act_event_moves hstep
  | closeConnection =>
    simp only [act, Option.ite_none_right_eq_some] at hstep
    obtain ⟨_, hstep⟩ := hstep
    split at hstep
    · rename_i conn hconn
      cases hstep
      exact .closes hconn
    · rename_i hnone
      simp only [Option.ite_none_left_eq_some, Option.some.injEq] at hstep
      obtain ⟨hleaving, rfl⟩ := hstep
      exact .closesAgain hnone hleaving
  | destroyConnection =>
    simp only [act] at hstep
    split at hstep
    · rename_i conn rest hleaving
      cases hstep
      exact .destroys hleaving
    · cases hstep

theorem step_act {w w' : ClientWorld} {l : ClientLabel} (hstep : w.step l = some w') :
    w.client.dangling = [] ∧ w.act l = some w' := by
  simpa only [step, Option.ite_none_right_eq_some] using hstep

theorem step_moves {w w' : ClientWorld} {l : ClientLabel} (hstep : w.step l = some w') : w.Moves l w' :=
  act_moves (step_act hstep).2

end ClientWorld

end mudong.ev
