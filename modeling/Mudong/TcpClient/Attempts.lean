import Mudong.TcpClient.Serving

namespace mudong.ev

/-- The connect did not fail at once. -/
def ConnectResult.Proceeds (result : ConnectResult) : Prop := result = .connected ∨ result.inProgress = true

instance (result : ConnectResult) : Decidable result.Proceeds := inferInstanceAs (Decidable (_ ∨ _))

/-- The result of an attempt: whether its socket got connected. -/
structure Outcome where
  attempt : Nat
  established : Bool
  deriving DecidableEq, Repr

/-- What is known of an attempt when `connect` has returned. -/
def ConnectResult.outcome (result : ConnectResult) (attempt : Nat) : List Outcome :=
  if result.inProgress then [] else [⟨attempt, result == .connected⟩]

namespace ClientWorld

/-- The attempt whose result a step brings: its connect returns at once, or a writable event is dispatched to its
connector, be it the current one or a replaced one. -/
def outcomes (w : ClientWorld) : ClientLabel → List Outcome
  | .start result timer => (w.connects (.start result timer)).flatMap (·.outcome w.client.connector_.attempt)
  | .retry sockfd result => (w.connects (.retry sockfd result)).flatMap (·.outcome (w.client.connector_.attempt + 1))
  | .event err =>
    match w.loop.phase, w.client.batch with
    | .handling, (.connector attempt, revents) :: _ => if Mask.has revents EPOLLOUT then [⟨attempt, err == 0⟩] else []
    | _, _ => []
  | _ => []

/-- `newConnectionCallback_` has been invoked for the attempts whose sockets got connected, and the error branch
taken for the others. -/
structure Announces (outcomes : List Outcome) (w : ClientWorld) : Prop where
  announced : w.client.newConnections.map NewConnection.attempt =
    (outcomes.filter (·.established)).map Outcome.attempt
  failed : w.client.errors = (outcomes.filter (!·.established)).map Outcome.attempt

variable {w w' : ClientWorld}

instance (outcomes : List Outcome) (w : ClientWorld) : Decidable (Announces outcomes w) :=
  decidable_of_iff (_ ∧ _) ⟨fun h => ⟨h.1, h.2⟩, fun h => ⟨h.announced, h.failed⟩⟩

theorem connects_retry {now : Timestamp} {e : Entry} {expired : List Entry}
    (hphase : w.loop.phase = .expiring now (e :: expired)) (sockfd : Nat) (result : ConnectResult) :
    w.connects (.retry sockfd result) =
      if (w.loop.object e.second).canceled_ || w.client.connected_ then [] else [result] := by
  simp only [connects, hphase]

/-- What is said of the attempts: the ones that are announced, and the ones that the error branch was taken for. -/
def verdicts (c : TcpClient) : List Nat × List Nat := (c.newConnections.map NewConnection.attempt, c.errors)

/-- A run of `handleWrite` for `attempt`, when the error is `err`. -/
def judged (c : TcpClient) (attempt err : Nat) : List Nat × List Nat :=
  if err = 0 then ((verdicts c).1 ++ [attempt], (verdicts c).2) else ((verdicts c).1, (verdicts c).2 ++ [attempt])

theorem handleWrite_verdicts (w : ClientWorld) (err : Nat) :
    verdicts (w.handleWrite err).client = judged w.client w.client.connector_.attempt err := by
  unfold handleWrite judged
  dsimp only
  by_cases herr : err = 0
  · rw [if_neg (not_not.mpr herr), if_pos herr]
    exact Prod.ext (List.map_append ..) rfl
  · rw [if_pos herr, if_neg herr]
    rfl

/-- After an immediate result `SO_ERROR` is zero, and the attempt is announced, whatever the result. -/
theorem startConnector_verdicts (w : ClientWorld) (result : ConnectResult) :
    verdicts (w.startConnector result).client =
      if result.inProgress then verdicts w.client else judged w.client w.client.connector_.attempt 0 := by
  unfold startConnector
  dsimp only
  split
  · rfl
  · exact handleWrite_verdicts ..

/-- Everything that a step can say of the attempts. -/
inductive Judges (w w' : ClientWorld) (l : ClientLabel) : Prop where
  | silent (hnone : w.outcomes l = []) (hproceeds : ∀ result ∈ w.connects l, result.Proceeds)
      (hsame : verdicts w'.client = verdicts w.client)
  | right (attempt err : Nat) (houtcome : w.outcomes l = [⟨attempt, err == 0⟩])
      (hproceeds : ∀ result ∈ w.connects l, result.Proceeds) (hjudged : verdicts w'.client = judged w.client attempt err)
  | wrong (attempt : Nat) (houtcome : w.outcomes l = [⟨attempt, false⟩])
      (hfails : ∃ result ∈ w.connects l, ¬result.Proceeds) (hjudged : verdicts w'.client = judged w.client attempt 0)

/-- An attempt of a connector that has not been started. -/
theorem judges_start {l : ClientLabel} {c : TcpClient} {attempt : Nat} {r : ConnectResult}
    (hconnects : w.connects l = [r]) (houtcomes : w.outcomes l = r.outcome attempt)
    (hsame : verdicts c = verdicts w.client)
    (hstart : verdicts w'.client = if r.inProgress then verdicts c else judged c attempt 0) : w.Judges w' l := by
  have hjudged : judged c attempt 0 = judged w.client attempt 0 := by simp only [judged, hsame]
  rw [hjudged, hsame] at hstart
  by_cases hprogress : r.inProgress = true
  · rw [if_pos hprogress] at hstart
    refine .silent ?_ ?_ hstart
    · rw [houtcomes, ConnectResult.outcome, if_pos hprogress]
    · simp [hconnects, ConnectResult.Proceeds, hprogress]
  · rw [if_neg hprogress] at hstart
    rw [ConnectResult.outcome, if_neg hprogress] at houtcomes
    by_cases hconnected : r = .connected
    · refine .right attempt 0 ?_ ?_ hstart
      · rw [houtcomes, hconnected]
        rfl
      · simp [hconnects, ConnectResult.Proceeds, hconnected]
    · refine .wrong attempt ?_ ⟨r, by simp [hconnects], ?_⟩ hstart
      · rw [houtcomes, beq_eq_false_iff_ne.mpr hconnected]
      · simp [ConnectResult.Proceeds, hconnected, hprogress]

theorem outcomes_ignored {err : Nat} {reported : ClientChannel × Events} {rest : List (ClientChannel × Events)}
    (hbatch : w.client.batch = reported :: rest)
    (hignored : ∀ attempt, reported.1 = .connector attempt → Mask.has reported.2 EPOLLOUT = false) :
    w.outcomes (.event err) = [] := by
  simp only [outcomes, hbatch]
  split
  · rename_i attempt revents _ _ hreported
    obtain ⟨rfl, _⟩ := List.cons.inj hreported
    rw [if_neg (by simp [hignored attempt rfl])]
  · rfl

theorem step_judges {l : ClientLabel} (hinv : w.Serving) (hstep : w.step l = some w') : w.Judges w' l := by
  have hsilent {l : ClientLabel} {w' : ClientWorld} (houtcomes : w.outcomes l = []) (hconnects : w.connects l = [])
      (hsame : verdicts w'.client = verdicts w.client) : w.Judges w' l :=
    .silent houtcomes (by simp [hconnects]) hsame
  cases step_moves hstep with
  | loop => exact hsilent rfl rfl rfl
  | setErrorCallback => exact hsilent rfl rfl rfl
  | @start result timer loop hnone huser hloop =>
    exact judges_start (r := result) (c := w.client) rfl (List.flatMap_singleton ..) rfl
      (startConnector_verdicts w result)
  | skips hphase hcallback hcanceled =>
    exact hsilent (by simp [outcomes, connects_retry hphase, hcanceled]) (by simp [connects_retry hphase, hcanceled]) rfl
  | late hphase hcallback hconnected =>
    exact hsilent (by simp [outcomes, connects_retry hphase, hconnected]) (by simp [connects_retry hphase, hconnected])
      rfl
  | @retry sockfd result loop now e expired hphase hcallback hcanceled hconnected =>
    have hconnects : w.connects (.retry sockfd result) = [result] := by
      simp [connects_retry hphase, hcanceled, hconnected]
    obtain ⟨interestList, descriptors, heq⟩ := w.renewed_eq loop sockfd
    have hstart := startConnector_verdicts (w.renewed loop sockfd) result
    have hattempt : (w.renewed loop sockfd).client.connector_.attempt = w.client.connector_.attempt + 1 := by
      rw [heq]
      rfl
    rw [hattempt] at hstart
    refine judges_start hconnects ?_ ?_ hstart
    · simp [outcomes, hconnects]
    · rw [heq]
      rfl
  | poll => exact hsilent rfl rfl rfl
  | @handles err revents rest hphase hbatch hout =>
    exact .right w.client.connector_.attempt err (by simp [outcomes, hphase, hbatch, hout]) (by simp [connects])
      (handleWrite_verdicts ..)
  | ignores hbatch hignored => exact hsilent (outcomes_ignored hbatch hignored) rfl rfl
  | @dangles err attempt revents rest hbatch hreplaced =>
    exact (hreplaced (hinv.current _ (by rw [hbatch]; exact List.mem_cons_self) attempt rfl)).elim
  | closes =>
    rw [TcpClient.close_eq]
    exact hsilent rfl rfl rfl
  | closesAgain => exact hsilent rfl rfl rfl
  | destroys => exact hsilent rfl rfl rfl

/-- The attempts are announced as they should be. -/
theorem Judges.announces {l : ClientLabel} {log : List Outcome} (h : w.Judges w' l) (hright : Announces log w)
    (hproceeds : ∀ result ∈ w.connects l, result.Proceeds) : Announces (log ++ w.outcomes l) w' := by
  cases h with
  | silent hnone _ hsame =>
    obtain ⟨hannounced, hfailed⟩ := Prod.mk.inj hsame
    rw [hnone, List.append_nil]
    exact ⟨hannounced.trans hright.announced, hfailed.trans hright.failed⟩
  | right attempt err houtcome _ hjudged =>
    rw [houtcome]
    by_cases herr : err = 0
    · rw [judged, if_pos herr] at hjudged
      obtain ⟨hannounced, hfailed⟩ := Prod.mk.inj hjudged
      refine ⟨hannounced.trans ?_, hfailed.trans ?_⟩
      · simp [verdicts, hright.announced, herr]
      · simp [verdicts, hright.failed, herr]
    · rw [judged, if_neg herr] at hjudged
      obtain ⟨hannounced, hfailed⟩ := Prod.mk.inj hjudged
      refine ⟨hannounced.trans ?_, hfailed.trans ?_⟩
      · simp [verdicts, hright.announced, herr]
      · simp [verdicts, hright.failed, herr]
  | wrong attempt houtcome hfails =>
    obtain ⟨result, hmem, hfailed⟩ := hfails
    exact (hfailed (hproceeds result hmem)).elim

/-- The error branch has been taken less often than an attempt has failed. -/
def Overlooks (log : List Outcome) (w : ClientWorld) : Prop :=
  w.client.errors.length < (log.filter (!·.established)).length

theorem Judges.overlooks {l : ClientLabel} {log : List Outcome} (h : w.Judges w' l) (hlog : Overlooks log w) :
    Overlooks (log ++ w.outcomes l) w' := by
  unfold Overlooks at hlog ⊢
  rw [List.filter_append, List.length_append]
  cases h with
  | silent _ _ hsame =>
    rw [show w'.client.errors = w.client.errors from (Prod.mk.inj hsame).2]
    omega
  | right attempt err houtcome _ hjudged =>
    rw [houtcome]
    by_cases herr : err = 0
    · rw [judged, if_pos herr] at hjudged
      rw [show w'.client.errors = w.client.errors from (Prod.mk.inj hjudged).2]
      omega
    · rw [judged, if_neg herr] at hjudged
      rw [show w'.client.errors = w.client.errors ++ [attempt] from (Prod.mk.inj hjudged).2]
      simp [herr, hlog]
  | wrong attempt _ _ hjudged =>
    rw [show w'.client.errors = w.client.errors from (Prod.mk.inj hjudged).2]
    omega

/-- A connect that fails at once is announced, and the error branch is not taken. -/
theorem Judges.breaks {l : ClientLabel} {log : List Outcome} (h : w.Judges w' l) (hright : Announces log w)
    (hfails : ∃ result ∈ w.connects l, ¬result.Proceeds) : Overlooks (log ++ w.outcomes l) w' := by
  obtain ⟨result, hmem, hfailed⟩ := hfails
  cases h with
  | silent _ hproceeds => exact (hfailed (hproceeds result hmem)).elim
  | right _ _ _ hproceeds => exact (hfailed (hproceeds result hmem)).elim
  | wrong attempt houtcome _ hjudged =>
    unfold Overlooks
    rw [houtcome, show w'.client.errors = w.client.errors from (Prod.mk.inj hjudged).2, hright.failed]
    simp

/-- Along a run in which the events of connectors find the current one, the attempts whose sockets get connected are
announced, and the error branch is taken for the others, exactly if no connect fails at once. -/
theorem announces_iff {time : Timestamp} {sockfd_ : Nat} {labels : List ClientLabel}
    (hreads : Run.Along step ReadsInTime (init time sockfd_) labels)
    (hrun : Run.exec step (init time sockfd_) labels = some w) :
    Announces (Run.trace step outcomes (init time sockfd_) labels) w ↔
      ∀ result ∈ Run.trace step connects (init time sockfd_) labels, result.Proceeds := by
  refine Run.exec_iff_trace_log (I := fun log w => w.Serving ∧ Announces log w)
    (B := fun log w => w.Serving ∧ Overlooks log w) (p := Announces) ?_ ?_ ?_ (fun _ _ h => h.2) ?_ []
    ⟨init_serving time sockfd_, rfl, rfl⟩ hreads hrun
  · rintro log w l w' ⟨hinv, hright⟩ hl hproceeds hstep
    exact ⟨(hinv.step hl hstep).1, (step_judges hinv hstep).announces hright hproceeds⟩
  · rintro log w l w' ⟨hinv, hright⟩ hl hfails hstep
    exact ⟨(hinv.step hl hstep).1, (step_judges hinv hstep).breaks hright hfails⟩
  · rintro log w l w' ⟨hinv, hoverlooks⟩ hl hstep
    exact ⟨(hinv.step hl hstep).1, (step_judges hinv hstep).overlooks hoverlooks⟩
  · rintro log w ⟨_, hoverlooks⟩ hright
    rw [Overlooks, hright.failed, List.length_map] at hoverlooks
    exact hoverlooks.ne rfl

/-- A first attempt is refused while it is under way, and the second one succeeds at once. -/
theorem announces_second_attempt :
    ∃ w, Run.exec step (init 0 7)
        [.start (.failed EINPROGRESS) 1, .loop .swap, .loop .endTasks,
          .poll [(7, EPOLLOUT ||| EPOLLERR ||| EPOLLHUP)], .event ECONNREFUSED, .loop .swap, .loop .endTasks,
          .loop (.tick 3000000000), .poll [], .loop .handleRead, .retry 8 .connected] = some w ∧
      w.client.newConnections.map NewConnection.attempt = [1] ∧ w.client.errors = [0] ∧
      Announces [⟨0, false⟩, ⟨1, true⟩] w := by
  apply Run.Reaches.exists_of
    (p := fun w => w.client.newConnections.map NewConnection.attempt = [1] ∧ w.client.errors = [0])
  · decide
  · rintro w hrun ⟨hannounced, hfailed⟩
    exact ⟨hannounced, hfailed, (announces_iff (by decide) hrun).mpr (by decide)⟩

/-- The network is unreachable, and a connection is announced. -/
theorem announced_unreachable :
    ∃ w, Run.exec step (init 0 7) [.start (.failed ENETUNREACH) 1] = some w ∧
      Run.trace step outcomes (init 0 7) [.start (.failed ENETUNREACH) 1] = [⟨0, false⟩] ∧
      w.client.newConnections.map NewConnection.attempt = [0] ∧ w.client.errors = [] ∧ ¬Announces [⟨0, false⟩] w := by
  apply Run.Reaches.exists
  decide

end ClientWorld

end mudong.ev
