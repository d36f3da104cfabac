import Mudong.TcpClient.Registered
import Mudong.TimerQueue.Repeating

namespace mudong.ev

namespace TimerWorld

variable {w w' : TimerWorld}

/-- Only `handleRead` takes entries out of the set for their dispatch. -/
theorem step_entries {l : TimerLabel} (hl : l ≠ .handleRead) (hstep : w.step l = some w') :
    w'.phase.entries ⊆ w.phase.entries := by
  cases step_turns hstep with
  | stay _ hphase => rw [hphase]; exact fun _ => id
  | outside _ _ hphase =>
    have hentries : w'.phase.entries = [] := by
      obtain hphase | hphase | hphase := hphase <;> rw [hphase] <;> rfl
    rw [hentries]
    exact List.nil_subset _
  | read _ hread => exact (hl hread).elim
  | fire now e rest _ hold hphase => rw [hold, hphase]; exact fun _ => id
  | settle now e rest ran _ hold hphase =>
    rw [hold, hphase]
    exact List.subset_cons_self e rest

/-- The entries that `handleRead` takes are due. -/
theorem handleRead_entries (hstep : w.step .handleRead = some w') :
    ∀ e ∈ w'.phase.entries, e ∈ w.timers_ ∧ e.first ≤ w.time := by
  simp only [TimerWorld.step, Option.ite_none_right_eq_some, Option.some.injEq] at hstep
  obtain ⟨_, rfl⟩ := hstep
  intro e he
  exact ⟨(List.takeWhile_sublist _).subset he, getExpired_due _ _ e he⟩

end TimerWorld

namespace ClientWorld

variable {w w' : ClientWorld}

/-- The invariant: as long as the client is not connected, an event of its connector and an expiry of its timer are
not both to be dispatched. -/
structure Serving (w : ClientWorld) : Prop extends Wired w where
  known : w.client.connected_ = false → w.loop.Known
  current : ∀ p ∈ w.client.batch, ∀ attempt, p.1 = .connector attempt → attempt = w.client.connector_.attempt
  unexpired : w.client.connected_ = false → ∀ timer, w.client.retryCallback = some timer →
    timer ∈ w.loop.phase.entries.map Entry.second → Unreported w.client.batch

/-- The timers of the client are not dispatched when the retry timer is due and a reported event of the connector is
still waiting, unless the client is connected. -/
def ReadsInTime (w : ClientWorld) (l : ClientLabel) : Prop :=
  l = .loop .handleRead → w.client.connected_ = false →
    (∃ p ∈ w.client.batch, p.1 = .connector w.client.connector_.attempt) →
      ∀ e ∈ w.loop.timers_, w.client.retryCallback = some e.second → w.loop.time < e.first

instance (w : ClientWorld) (l : ClientLabel) : Decidable (w.ReadsInTime l) :=
  inferInstanceAs (Decidable (_ → _ → _ → _))

/-- A step of the loop. -/
theorem Serving.loop_step {l : TimerLabel} {loop : TimerWorld} (hinv : w.Serving) (hreads : w.ReadsInTime (.loop l))
    (hloop : w.loop.step l = some loop) :
    (w.client.connected_ = false → loop.Known) ∧ (w.client.connected_ = false → ∀ timer,
      w.client.retryCallback = some timer → timer ∈ loop.phase.entries.map Entry.second →
        Unreported w.client.batch) := by
  refine ⟨fun hconnected => (hinv.known hconnected).step hloop, fun hconnected timer hcallback hmem => ?_⟩
  by_cases hl : l = .handleRead
  · subst hl
    obtain ⟨e, he, rfl⟩ := List.mem_map.mp hmem
    obtain ⟨htimers, hdue⟩ := TimerWorld.handleRead_entries hloop e he
    intro p hp attempt hname
    obtain rfl := hinv.current p hp attempt hname
    exact absurd hdue (not_le.mpr (hreads rfl hconnected ⟨p, hp, hname⟩ e htimers hcallback))
  · have hsubset := List.map_subset Entry.second (TimerWorld.step_entries hl hloop)
    exact hinv.unexpired hconnected timer hcallback (hsubset hmem)

/-- The client stays as it is, as far as its connector is concerned, and events may be taken from the batch. -/
theorem Serving.of_same (hinv : w.Serving) (hwired : w'.Wired) (hloop : w'.loop = w.loop)
    (hbatch : w'.client.batch ⊆ w.client.batch)
    (hsame : (w'.client.connected_, w'.client.retryCallback, w'.client.connector_.attempt) =
      (w.client.connected_, w.client.retryCallback, w.client.connector_.attempt)) : w'.Serving := by
  simp only [Prod.mk.injEq] at hsame
  obtain ⟨hconnected, hcallback, hattempt⟩ := hsame
  refine ⟨hwired, ?_, ?_, ?_⟩
  · rw [hconnected, hloop]
    exact hinv.known
  · rw [hattempt]
    exact fun p hp => hinv.current p (hbatch hp)
  · rw [hconnected, hcallback, hloop]
    exact fun hfalse timer htimer hmem p hp => hinv.unexpired hfalse timer htimer hmem p (hbatch hp)

/-- A client with no reported event of a connector. -/
theorem Serving.of_unreported (hwired : w.Wired) (hunreported : Unreported w.client.batch)
    (hknown : w.client.connected_ = false → w.loop.Known) : w.Serving := by
  refine ⟨hwired, hknown, ?_, fun _ _ _ _ => hunreported⟩
  intro p hp attempt hname
  exact (hunreported p hp attempt hname).elim

theorem Serving.step {l : ClientLabel} (hinv : w.Serving) (hreads : w.ReadsInTime l) (hstep : w.step l = some w') :
    w'.Serving ∧ w'.client.dangling = w.client.dangling := by
  have hwired := hinv.toWired.step hstep
  have hfire {loop : TimerWorld} (hloop : w.loop.step .fire = some loop) :=
    hinv.loop_step (fun h => by cases h) hloop
  cases step_moves hstep with
  | loop hpermits hloop =>
    obtain ⟨hknown, hunexpired⟩ := hinv.loop_step hreads hloop
    exact ⟨⟨hwired, hknown, hinv.current, hunexpired⟩, rfl⟩
  | setErrorCallback => exact ⟨hinv.of_same hwired rfl (List.Subset.refl _) rfl, rfl⟩
  | @start result timer loop hnone huser hloop =>
    have hsame := startConnector_reported w result
    simp only [reported, Prod.mk.injEq] at hsame
    obtain ⟨hbatch, _, hdangling, _⟩ := hsame
    refine ⟨.of_unreported hwired (hbatch ▸ (hinv.unstarted hnone).2.2) fun hconnected => ?_, hdangling⟩
    obtain ⟨hloops, hunconnected⟩ := startConnector_unconnected hconnected
    rw [hloops] at hloop
    exact (hinv.known hunconnected).step hloop
  | skips hphase hcallback hcanceled hloop =>
    exact ⟨⟨hwired, (hfire hloop).1, hinv.current, (hfire hloop).2⟩, rfl⟩
  | late hphase hcallback hconnected hloop =>
    exact ⟨⟨hwired, (hfire hloop).1, hinv.current, (hfire hloop).2⟩, rfl⟩
  | @retry sockfd result loop now e expired hphase hcallback hcanceled hconnected hfresh hloop hcalling =>
    -- The timer is in the hands of the dispatch, so no event of the connector that goes is waiting.
    have hunreported := hinv.unexpired hconnected e.second hcallback (by simp [hphase, TimerPhase.entries])
    have hsame := startConnector_reported (w.renewed loop sockfd) result
    obtain ⟨interestList, descriptors, heq⟩ := w.renewed_eq loop sockfd
    simp only [reported, heq, Prod.mk.injEq] at hsame
    obtain ⟨hbatch, _, hdangling, _⟩ := hsame
    rw [heq] at hwired ⊢
    refine ⟨.of_unreported hwired (hbatch ▸ hunreported) fun hunconnected => ?_, hdangling⟩
    rw [(startConnector_unconnected hunconnected).1]
    exact (hinv.known hconnected).step hloop
  | @poll ready batch loop hbatch hnodup hloop =>
    have hphase : loop.phase = .handling := by
      simp only [TimerWorld.step, Option.ite_none_right_eq_some, Option.some.injEq] at hloop
      rw [← hloop.2]
    refine ⟨⟨hwired, fun h => (hinv.known h).step hloop, fun p hp attempt hname => ?_, ?_⟩, rfl⟩
    · obtain ⟨fd, r, hr, hchannel, _⟩ := TcpClient.report_listed hbatch p hp
      exact (hinv.registered.listed fd r attempt hr (hchannel.trans hname)).1
    · intro _ timer _ hmem
      simp [hphase, TimerPhase.entries] at hmem
  | @handles err revents rest hphase hbatch hout =>
    have hsame := handleWrite_reported (w.taken rest) err
    simp only [reported, Prod.mk.injEq] at hsame
    obtain ⟨hrest, hcallback, hdangling, hattempt⟩ := hsame
    have hsubset : rest ⊆ w.client.batch := by
      rw [hbatch]
      exact List.subset_cons_self _ rest
    refine ⟨⟨hwired, ?_, ?_, ?_⟩, hdangling⟩
    · intro hconnected
      obtain ⟨hloop, hunconnected⟩ := handleWrite_unconnected hconnected
      rw [hloop]
      exact hinv.known hunconnected
    · rw [hrest, hattempt]
      exact fun p hp => hinv.current p (hsubset hp)
    · intro hconnected timer _ hmem
      rw [(handleWrite_unconnected hconnected).1] at hmem
      simp [taken, hphase, TimerPhase.entries] at hmem
  | ignores hbatch =>
    refine ⟨hinv.of_same hwired rfl ?_ rfl, rfl⟩
    rw [hbatch]
    exact List.subset_cons_self _ _
  | @dangles err attempt revents rest hbatch hreplaced =>
    exact (hreplaced (hinv.current _ (by rw [hbatch]; exact List.mem_cons_self) attempt rfl)).elim
  | closes =>
    rw [TcpClient.close_eq] at hwired ⊢
    exact ⟨hinv.of_same hwired rfl (List.Subset.refl _) rfl, rfl⟩
  | closesAgain => exact ⟨hinv.of_same hwired rfl (List.Subset.refl _) rfl, rfl⟩
  | destroys => exact ⟨hinv.of_same hwired rfl (List.Subset.refl _) rfl, rfl⟩

theorem init_serving (time : Timestamp) (sockfd_ : Nat) : (init time sockfd_).Serving := by
  have hwired := init_wired time sockfd_
  refine .of_unreported hwired (hwired.unstarted rfl).2.2 fun _ timer _ => ?_
  exact ⟨rfl, by simp [TimerWorld.Unnamed, init, TimerWorld.init, EventLoop.init]⟩

end ClientWorld

end mudong.ev
