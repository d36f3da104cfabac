import Mudong.TcpClient.Life
import Mudong.TcpClient.Serving

namespace mudong.ev

namespace ClientLife

open ClientWorld (Unreported Serving)

/-- Every reported event of a connector that has not been dispatched is for the current connector of a client that
exists, and none has been dispatched to another one. -/
structure ServesCurrent (w : ClientLife) : Prop where
  waiting : ∀ p ∈ w.client.batch, ∀ attempt, p.1 = .connector attempt →
    w.destroyed = false ∧ attempt = w.client.connector_.attempt
  dangling : w.client.dangling = []

/-- The steps that destroy a connector come at a time when none of its events is waiting. A client whose connector
has connected and is still registered all the same is not destroyed. -/
def SparesReported (w : ClientLife) : LifeLabel → Prop
  | .step l => w.ReadsInTime l
  | .connection _ => True
  | .destroy => Unreported w.client.batch ∧
    (w.client.connector_.connected_ = true → w.client.connector_.channel_.pooling = false)

instance (w : ClientLife) : ∀ l, Decidable (w.SparesReported l)
  | .step l => inferInstanceAs (Decidable (w.ReadsInTime l))
  | .connection _ => inferInstanceAs (Decidable True)
  | .destroy => inferInstanceAs (Decidable (_ ∧ _))

/-- The invariant, which for a destroyed client says that nothing is left of its connector. -/
structure Current (w : ClientLife) : Prop where
  lives : w.destroyed = false → w.Serving
  gone : w.destroyed = true → w.client.interestList.Connectorless ∧ Unreported w.client.batch
  dangling : w.client.dangling = []

variable {w w' : ClientLife}

theorem Current.servesCurrent (hinv : w.Current) : w.ServesCurrent := by
  refine ⟨fun p hp attempt hname => ?_, hinv.dangling⟩
  cases hdestroyed : w.destroyed with
  | false => exact ⟨rfl, (hinv.lives hdestroyed).current p hp attempt hname⟩
  | true => exact ((hinv.gone hdestroyed).2 p hp attempt hname).elim

/-- A step of the loop that does without the client. -/
theorem Current.of_gone (hdestroyed : w'.destroyed = true) (hlist : w'.client.interestList.Connectorless)
    (hbatch : Unreported w'.client.batch) (hdangling : w'.client.dangling = []) : w'.Current :=
  ⟨fun hlives => by simp [hdestroyed] at hlives, fun _ => ⟨hlist, hbatch⟩, hdangling⟩

/-- `~Connector` leaves nothing registered. -/
theorem destroyConnector_connectorless {c : TcpClient} (hregistered : c.Registered)
    (hpooling : c.connector_.connected_ = true → c.connector_.channel_.pooling = false) :
    c.destroyConnector.interestList.Connectorless := by
  unfold TcpClient.destroyConnector
  split
  · rename_i hconnected
    intro fd r attempt hr hname
    cases (hpooling hconnected).symm.trans (hregistered.listed fd r attempt hr hname).2.2.1
  · exact InterestList.connectorless_close hregistered.listed

theorem destroyConnector_reported (c : TcpClient) :
    ClientWorld.reported c.destroyConnector = ClientWorld.reported c := by
  unfold TcpClient.destroyConnector
  split <;> rfl

theorem Current.step {l : LifeLabel} (hinv : w.Current) (hspares : w.SparesReported l) (hstep : w.step l = some w') :
    w'.Current := by
  cases step_moves hstep with
  | lives hlives hworld =>
    obtain ⟨hserving, hdangling⟩ := (hinv.lives hlives).step hspares hworld
    exact ⟨fun _ => hserving, fun hdestroyed => by simp [hlives] at hdestroyed, hdangling.trans hinv.dangling⟩
  | destroy huser hlives =>
    have hregistered := (hinv.lives hlives).registered
    have hsame := destroyConnector_reported
      { w.client with connection_ := none, leaving := w.client.leaving ++ w.client.foundClosed }
    simp only [ClientWorld.reported, Prod.mk.injEq] at hsame
    refine .of_gone rfl ?_ ?_ (hsame.2.2.1.trans hinv.dangling)
    · exact destroyConnector_connectorless ⟨hregistered.sockfd_, hregistered.listed, hregistered.owned⟩ hspares.2
    · rw [destroy, hsame.1]
      exact hspares.1
  | loop hdestroyed => exact .of_gone hdestroyed (hinv.gone hdestroyed).1 (hinv.gone hdestroyed).2 hinv.dangling
  | fires hdestroyed => exact .of_gone hdestroyed (hinv.gone hdestroyed).1 (hinv.gone hdestroyed).2 hinv.dangling
  | poll hdestroyed hbatch =>
    refine .of_gone hdestroyed (hinv.gone hdestroyed).1 (fun p hp attempt hname => ?_) hinv.dangling
    obtain ⟨fd, r, hr, hchannel, _⟩ := TcpClient.report_listed hbatch p hp
    exact (hinv.gone hdestroyed).1 fd r attempt hr (hchannel.trans hname)
  | @event err reported rest hdestroyed hbatch =>
    obtain ⟨hlist, hunreported⟩ := hinv.gone hdestroyed
    rw [hbatch] at hunreported
    obtain ⟨channel, revents⟩ := reported
    cases channel with
    | connector attempt => exact (hunreported _ List.mem_cons_self attempt rfl).elim
    | connection attempt =>
      exact .of_gone hdestroyed hlist (fun p hp => hunreported p (List.mem_cons_of_mem _ hp)) hinv.dangling
  | goes => exact ⟨fun hlives => hinv.lives hlives, fun hdestroyed => hinv.gone hdestroyed, hinv.dangling⟩
  | closes hlives hconn hconn' hworld =>
    obtain ⟨hserving, hdangling⟩ := (hinv.lives hlives).step (fun h => by cases h) hworld
    exact ⟨fun _ => hserving, fun hdestroyed => by simp [hlives] at hdestroyed, hdangling.trans hinv.dangling⟩
  | calls hdestroyed =>
    obtain ⟨hlist, hbatch⟩ := hinv.gone hdestroyed
    cases w.closing with
    | none => exact .of_gone hdestroyed hlist hbatch hinv.dangling
    | some conn =>
      refine .of_gone hdestroyed (fun fd r attempt hr hname => ?_) hbatch hinv.dangling
      exact hlist fd r attempt (InterestList.interest_connection hr hname) hname
  | destroys hdestroyed =>
    exact .of_gone hdestroyed ((hinv.gone hdestroyed).1.close _) (hinv.gone hdestroyed).2 hinv.dangling

theorem init_current (time : Timestamp) (sockfd_ : Nat) : (init time sockfd_).Current := by
  have hwired := ClientWorld.init_wired time sockfd_
  obtain ⟨_, hlist, hbatch⟩ := hwired.unstarted rfl
  exact ⟨fun _ => ClientWorld.init_serving time sockfd_, fun _ => ⟨hlist, hbatch⟩, rfl⟩

/-- In every run that does not dispatch the retry timer, or destroy the client, ahead of a reported event of the
connector, the events of connectors are dispatched to the current one. -/
theorem serves_current_connector {time : Timestamp} {sockfd_ : Nat} {labels : List LifeLabel} {w : ClientLife}
    (hspares : Run.Along step SparesReported (init time sockfd_) labels)
    (hrun : Run.exec step (init time sockfd_) labels = some w) : w.ServesCurrent := by
  have hinv : w.Current :=
    Run.exec_invariant (fun _ _ _ hinv hl hstep => hinv.step hl hstep) (init_current time sockfd_) hspares hrun
  exact hinv.servesCurrent

/-- The timer of the loop comes first in a round, but the retry timer is not due; in the next round it is due, and the
attempt that it ends has not been reported. -/
theorem serves_second_connector :
    ∃ w, Run.exec step (init 0 7)
        [.step (.start (.failed EINPROGRESS) 1), .step (.loop .swap), .step (.loop .endTasks),
          .step (.poll [(7, EPOLLOUT)]), .step (.loop .handleRead), .step (.loop .endRead), .step (.event ECONNREFUSED),
          .step (.loop .swap), .step (.loop .endTasks), .step (.loop (.tick 3000000000)), .step (.poll []),
          .step (.loop .handleRead), .step (.retry 8 (.failed EINPROGRESS)), .step (.loop .settle),
          .step (.loop .endRead), .step (.loop .swap), .step (.loop .endTasks), .step (.poll [(8, EPOLLOUT)])] = some w ∧
      w.client.batch = [(.connector 1, EPOLLOUT)] ∧ w.client.retries = [false] ∧ w.ServesCurrent := by
  apply Run.Reaches.exists_of (p := fun w => w.client.batch = [(.connector 1, EPOLLOUT)] ∧ w.client.retries = [false])
  · decide +kernel
  · rintro w hrun ⟨hbatch, hretries⟩
    exact ⟨hbatch, hretries, serves_current_connector (by decide +kernel) hrun⟩

/-- The connection is established in the round in which the retry timer expires. The timers come first: `retry`
destroys the connector, whose channel is still to be dispatched, and then it is. -/
theorem replaced_connector_served :
    ∃ w, Run.exec step (init 0 7)
        [.step (.start (.failed EINPROGRESS) 1), .step (.loop .swap), .step (.loop .endTasks),
          .step (.loop (.tick 3000000000)), .step (.poll [(7, EPOLLOUT)]), .step (.loop .handleRead),
          .step (.retry 8 (.failed EINPROGRESS)), .step (.loop .settle), .step (.loop .endRead), .step (.event 0)] =
        some w ∧
      w.destroyed = false ∧ w.client.connector_.attempt = 1 ∧ w.client.dangling = [0] ∧ ¬w.ServesCurrent := by
  apply Run.Reaches.exists_of
    (p := fun w => w.destroyed = false ∧ w.client.connector_.attempt = 1 ∧ w.client.dangling = [0])
  · decide +kernel
  · rintro w hrun ⟨hlives, hattempt, hdangling⟩
    refine ⟨hlives, hattempt, hdangling, fun hserves => ?_⟩
    cases hdangling.symm.trans hserves.dangling

end ClientLife

end mudong.ev
