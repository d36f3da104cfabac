import Mudong.TcpConnection.Assertions
import Mudong.TcpConnection.States

namespace mudong.ev

/-- The assertions about the state in the handlers of a dispatch hold. -/
def Assertion.offState (site : Assertion) : Prop := site ≠ .handleRead ∧ site ≠ .handleClose

/-- The reported mask with which a dispatch closes and then goes on to read. -/
def HangsUpUrgently (revents : Events) : Prop :=
  Mask.has revents EPOLLHUP = true ∧ Mask.has revents EPOLLPRI = true ∧ Mask.has revents EPOLLIN = false

instance (revents : Events) : Decidable (HangsUpUrgently revents) := inferInstanceAs (Decidable (_ ∧ _))

namespace World

/-- The read callback is still to be considered. -/
def BeforeRead (left : Option Stage) : Prop := left = some .onError ∨ left = some .onRead

/-- What holds throughout a dispatch that began in `w`: it has not closed the connection, or it has closed it
once and has no read to make any more. -/
structure DispatchInv (w v : World) : Prop where
  revents_ : v.channel_.revents_ = w.channel_.revents_
  fails : Conn.FailsOnly Assertion.offState w.toConn v.toConn
  progress : ∃ left, v.phase = .handling left ∧
    (v.closes = w.closes ∧ (v.state_ = .kConnected ∨ v.state_ = .kDisconnecting) ∨
      v.closes = w.closes + 1 ∧ left ≠ some .onClose ∧
        (BeforeRead left → Mask.has w.channel_.revents_ (EPOLLIN ||| EPOLLPRI ||| EPOLLRDHUP) = false))

/-- Steps other than those of the dispatch itself. -/
private theorem DispatchInv.beside {w v v' : World} (hinv : DispatchInv w v)
    (hrevents : v'.channel_.revents_ = v.channel_.revents_) (hphase : v'.phase = v.phase)
    (hcloses : v'.closes = v.closes)
    (hstate : v.state_ ≠ .kDisconnected → v'.state_ = v.state_ ∨ v'.state_ = .kDisconnecting)
    (hfails : Conn.FailsOnly Assertion.offState v.toConn v'.toConn) : DispatchInv w v' := by
  obtain ⟨left, hleft, hprogress⟩ := hinv.progress
  refine ⟨hrevents.trans hinv.revents_, hinv.fails.trans hfails, left, hphase.trans hleft, ?_⟩
  rw [hcloses]
  refine hprogress.imp_left fun ⟨hsame, hlive⟩ => ⟨hsame, ?_⟩
  have hopen : v.state_ ≠ .kDisconnected := by
    obtain h | h := hlive <;> simp [h]
  obtain h | h := hstate hopen
  · rw [h]
    exact hlive
  · exact Or.inr h

/-- The callbacks of the dispatch. After a close only masks without a read bit are left to consider: such a
close has either been reported without one or been made by the read callback itself. -/
private theorem DispatchInv.runStage {w v : World} (hinv : DispatchInv w v)
    (hmask : ¬HangsUpUrgently w.channel_.revents_) (hrdhup : Mask.has w.channel_.revents_ EPOLLRDHUP = false)
    {stage : Stage} (hphase : v.phase = .handling (some stage)) (read : Buffer.ReadvResult) (write : WriteResult) :
    DispatchInv w { v with toConn := v.runStage read write stage, phase := .handling stage.next } := by
  obtain ⟨left, hleft, hprogress⟩ := hinv.progress
  obtain rfl : left = some stage := by
    rw [hleft] at hphase
    exact Phase.handling.inj hphase
  have hrevents : (v.runStage read write stage).channel_.revents_ = w.channel_.revents_ :=
    (Conn.runStage_settled v.toConn read write stage).revents_.trans hinv.revents_
  have hcloses := Conn.runStage_closesIf v.toConn read write stage
  have hoff (site : Assertion) (hsite : site ≠ .handleRead) (hsite' : site ≠ .handleClose) : site.offState :=
    ⟨hsite, hsite'⟩
  obtain ⟨hsame, hlive⟩ | ⟨honce, hnotClose, hnoRead⟩ := hprogress
  · have hfails : Conn.FailsOnly Assertion.offState v.toConn (v.runStage read write stage) := by
      refine Conn.runStage_failsOnly v.toConn read write (fun _ hnot => (hnot hlive).elim) ?_ ?_
        (hoff _ (by simp) (by simp))
      · refine fun _ _ => ⟨fun h => ?_, fun hnot => (hnot hlive).elim⟩
        simp [h] at hlive
      · exact fun _ _ _ => ⟨fun _ => hoff _ (by simp) (by simp), fun _ => hoff _ (by simp) (by simp)⟩
    refine ⟨hrevents, hinv.fails.trans hfails, stage.next, rfl, ?_⟩
    cases hclosing : v.stageCloses read stage with
    | false =>
      rw [hclosing] at hcloses
      refine Or.inl ⟨hcloses.closes.trans hsame, ?_⟩
      dsimp only
      rw [hcloses.state_]
      exact hlive
    | true =>
      rw [hclosing] at hcloses
      refine Or.inr ⟨hcloses.closes.trans (congrArg (· + 1) hsame), by cases stage <;> simp [Stage.next], ?_⟩
      intro hbefore
      cases stage with
      | onClose =>
        simp only [Conn.stageCloses, hinv.revents_, Bool.and_eq_true, Bool.not_eq_true'] at hclosing
        obtain ⟨hhup, hin⟩ := hclosing
        have hpri : Mask.has w.channel_.revents_ EPOLLPRI = false := by
          by_contra hpri
          exact hmask ⟨hhup, by simpa using hpri, hin⟩
        rw [Mask.has_or_right, Mask.has_or_right, hin, hpri, hrdhup]
        rfl
      | onError => simp [Conn.stageCloses] at hclosing
      | onRead => simp [BeforeRead, Stage.next] at hbefore
      | onWrite => simp [Conn.stageCloses] at hclosing
  · have hquiet : stage = .onRead →
        Mask.has v.channel_.revents_ (EPOLLIN ||| EPOLLPRI ||| EPOLLRDHUP) = false := by
      rintro rfl
      rw [hinv.revents_]
      exact hnoRead (Or.inr rfl)
    have hfails : Conn.FailsOnly Assertion.offState v.toConn (v.runStage read write stage) := by
      refine Conn.runStage_failsOnly v.toConn read write (fun h => (hnotClose (by rw [h])).elim) ?_ ?_
        (hoff _ (by simp) (by simp))
      · intro hread hbits
        simp [hquiet hread] at hbits
      · exact fun _ _ _ => ⟨fun _ => hoff _ (by simp) (by simp), fun _ => hoff _ (by simp) (by simp)⟩
    have hclosing : v.stageCloses read stage = false := by
      cases stage with
      | onClose => exact (hnotClose rfl).elim
      | onError => rfl
      | onRead => simp [Conn.stageCloses, hquiet rfl]
      | onWrite => rfl
    rw [hclosing] at hcloses
    refine ⟨hrevents, hinv.fails.trans hfails, stage.next, rfl, Or.inr ⟨hcloses.closes.trans honce, ?_, ?_⟩⟩
    · cases stage <;> simp [Stage.next]
    · intro hbefore
      cases stage with
      | onClose => exact (hnotClose rfl).elim
      | onError => exact hnoRead (Or.inl rfl)
      | onRead => simp [BeforeRead, Stage.next] at hbefore
      | onWrite => simp [BeforeRead, Stage.next] at hbefore

theorem DispatchInv.step {w v v' : World} {l : Label} (hinv : DispatchInv w v)
    (hmask : ¬HangsUpUrgently w.channel_.revents_) (hrdhup : Mask.has w.channel_.revents_ EPOLLRDHUP = false)
    (hl : l ≠ .swap) (hstep : v.step l = some v') : DispatchInv w v' := by
  obtain ⟨left, hleft, hprogress⟩ := hinv.progress
  cases step_moves hstep with
  | pollOther hphase => simp [hleft] at hphase
  | poll hphase hreport => simp [hleft] at hphase
  | dispatch hphase hfits =>
    rename_i read write stage
    obtain rfl : left = some stage := by simpa [hleft] using hphase
    exact hinv.runStage hmask hrdhup hphase read write
  | swap hphase => exact (hl rfl).elim
  | task hphase htasks hfits => simp [hleft] at hphase
  | endTasks hphase htasks => simp [hleft] at hphase
  | call hphase hfits =>
    rename_i api write
    have hcalm := Conn.callInLoop_calm v.toConn write api
    refine hinv.beside hcalm.revents_ rfl hcalm.closes ?_ ?_
    · intro hlive
      obtain h | h := Conn.callInLoop_state_ write (fun _ => hlive)
      · exact Or.inl h
      · exact Or.inr h.2
    · exact Conn.callInLoop_failsOnly v.toConn write api (fun _ => ⟨by simp, by simp⟩) (fun _ => ⟨by simp, by simp⟩)
        ⟨by simp, by simp⟩
  | startShutdown hidle =>
    refine hinv.beside rfl rfl rfl (fun _ => Or.inl rfl) ?_
    exact Conn.check_failsOnly v.toConn (fun _ => ⟨by simp, by simp⟩)
  | exchangeShutdown hcall => exact hinv.beside rfl rfl rfl (fun _ => Or.inr rfl) (.of_eq rfl)
  | exchangeForceClose hcall => exact hinv.beside rfl rfl rfl (fun _ => Or.inr rfl) (.of_eq rfl)
  | _ => exact hinv.beside rfl rfl rfl (fun _ => Or.inl rfl) (.of_eq rfl)

private theorem step_dispatch {w : World} {stage : Stage} (hphase : w.phase = .handling (some stage))
    (read : Buffer.ReadvResult) :
    w.step (.dispatch read (.accepted 0)) =
      some { w with toConn := w.runStage read (.accepted 0) stage, phase := .handling stage.next } := by
  simp [step, hphase, WriteResult.Fits]

/-- With such a mask the connection is closed by the close callback and again by the read callback. -/
private theorem closes_twice {w : World} (hphase : w.phase = .handling (some .onClose))
    (hmask : HangsUpUrgently w.channel_.revents_) :
    ∃ w', Run.exec step w (List.replicate 3 (.dispatch (.filled []) (.accepted 0))) = some w' ∧
      w'.closes = w.closes + 2 := by
  obtain ⟨hhup, hpri, hin⟩ := hmask
  have hclose := Conn.runStage_closesIf w.toConn (.filled []) (.accepted 0) .onClose
  have hrevents := (Conn.runStage_settled w.toConn (.filled []) (.accepted 0) .onClose).revents_
  have hfirst : w.stageCloses (.filled []) .onClose = true := by simp [Conn.stageCloses, hhup, hin]
  rw [hfirst] at hclose
  generalize hc : w.runStage (.filled []) (.accepted 0) .onClose = c at hclose hrevents
  have herror : c.runStage (.filled []) (.accepted 0) .onError = c := by
    simp only [Conn.runStage]
    split <;> rfl
  have hsecond : c.stageCloses (.filled []) .onRead = true := by
    have hbits : Mask.has c.channel_.revents_ (EPOLLIN ||| EPOLLPRI ||| EPOLLRDHUP) = true := by
      rw [hrevents, Mask.has_or_right, Mask.has_or_right, hpri, Bool.or_true, Bool.true_or]
    rw [Conn.stageCloses, hbits]
    rfl
  have hread := Conn.runStage_closesIf c (.filled []) (.accepted 0) .onRead
  rw [hsecond] at hread
  refine ⟨{ w with toConn := c.runStage (.filled []) (.accepted 0) .onRead, phase := .handling (some .onWrite) }, ?_, ?_⟩
  · refine Run.exec_cons_eq_some.mpr ⟨_, step_dispatch hphase _, ?_⟩
    rw [hc]
    refine Run.exec_cons_eq_some.mpr ⟨_, step_dispatch rfl _, ?_⟩
    refine Run.exec_cons_eq_some.mpr ⟨_, step_dispatch rfl _, ?_⟩
    dsimp only
    rw [herror]
    rfl
  · exact hread.closes.trans (congrArg (· + 1) hclose.closes)

/-- A dispatch closes a connection at most once and within the assertions of its handlers, whatever the
system calls return and whatever the callbacks and the other threads do, exactly if it is not told of a
hang-up together with urgent data and nothing to read. -/
theorem dispatch_closes_once_iff {w : World} (hphase : w.phase = .handling (some .onClose))
    (hlive : w.state_ = .kConnected ∨ w.state_ = .kDisconnecting) (hevents : InterestOp.Reached w.channel_.events_)
    (hrevents : Mask.Within w.channel_.revents_ (w.channel_.events_ ||| EPOLLERR ||| EPOLLHUP)) :
    (∀ labels w', .swap ∉ labels → Run.exec step w labels = some w' →
      w'.closes ≤ w.closes + 1 ∧ Conn.FailsOnly Assertion.offState w.toConn w'.toConn) ↔
      ¬HangsUpUrgently w.channel_.revents_ := by
  constructor
  · intro hsafe hmask
    obtain ⟨w', hrun, hcloses⟩ := closes_twice hphase hmask
    have honce := (hsafe _ w' (by simp) hrun).1
    omega
  · intro hmask labels w' hswap hrun
    have hrdhup : Mask.has w.channel_.revents_ EPOLLRDHUP = false := by
      by_contra hbit
      have hasked := reported_has (f := EPOLLRDHUP) hrevents (by decide) (by simpa using hbit)
      simp [hevents.not_rdhup] at hasked
    have hinit : DispatchInv w w := ⟨rfl, .of_eq rfl, _, hphase, Or.inl ⟨rfl, hlive⟩⟩
    have hlabels : ∀ l ∈ labels, l ≠ Label.swap := by
      rintro l hl rfl
      exact hswap hl
    have hinv : DispatchInv w w' :=
      Run.exec_invariant (I := DispatchInv w) (C := fun _ l => l ≠ Label.swap)
        (fun _ _ _ hinv hl hstep => hinv.step hmask hrdhup hl hstep) hinit (.of_labels hlabels) hrun
    obtain ⟨left, _, ⟨hsame, _⟩ | ⟨honce, _⟩⟩ := hinv.progress
    · exact ⟨by omega, hinv.fails⟩
    · exact ⟨by omega, hinv.fails⟩

theorem dispatch_closes_once_on_input : ∃ w : World,
    Run.exec step (established 0 0) [.swap, .endTasks, .poll (some (EPOLLHUP ||| EPOLLIN))] = some w ∧
      ∀ labels w', .swap ∉ labels → Run.exec step w labels = some w' →
        w'.closes ≤ w.closes + 1 ∧ Conn.FailsOnly Assertion.offState w.toConn w'.toConn := by
  obtain ⟨w, hrun, hphase, hlive, hevents, hrevents⟩ := Run.Reaches.exists
    (show Run.Reaches step (established 0 0) [.swap, .endTasks, .poll (some (EPOLLHUP ||| EPOLLIN))]
      (fun w => w.phase = .handling (some .onClose) ∧ (w.state_ = .kConnected ∨ w.state_ = .kDisconnecting) ∧
        w.channel_.events_ = EPOLLIN ||| EPOLLPRI ∧ w.channel_.revents_ = EPOLLHUP ||| EPOLLIN) by decide +kernel)
  refine ⟨w, hrun, (dispatch_closes_once_iff hphase hlive ⟨[.enableRead], by decide, ?_⟩ ?_).mpr ?_⟩
  · rw [hevents]
    decide
  · rw [hrevents, hevents]
    decide
  · rw [hrevents]
    decide

/-- After `stopRead()` the interest in urgent data is left, and a hang-up reported with it closes the
connection in the close callback and reads from it, closed, in the read callback. -/
theorem dispatch_closes_twice : ∃ w w' : World,
    Run.exec step (established 0 0)
      [.call .stopRead (.accepted 0), .swap, .endTasks, .poll (some (EPOLLHUP ||| EPOLLPRI))] = some w ∧
    w.phase = .handling (some .onClose) ∧ w.state_ = .kConnected ∧ InterestOp.Reached w.channel_.events_ ∧
    Mask.Within w.channel_.revents_ (w.channel_.events_ ||| EPOLLERR ||| EPOLLHUP) ∧
    Run.exec step w (List.replicate 4 (.dispatch (.filled []) (.accepted 0))) = some w' ∧
    w'.closes = w.closes + 2 ∧ w'.failures = w.failures ++ [.handleRead, .handleClose, .updateChannel] := by
  obtain ⟨w, hrun, hphase, hstate, hevents, hwithin, hfailures, hcloses, hrest⟩ := Run.Reaches.exists
    (show Run.Reaches step (established 0 0)
      [.call .stopRead (.accepted 0), .swap, .endTasks, .poll (some (EPOLLHUP ||| EPOLLPRI))]
      (fun w => w.phase = .handling (some .onClose) ∧ w.state_ = .kConnected ∧ w.channel_.events_ = EPOLLPRI ∧
        Mask.Within w.channel_.revents_ (w.channel_.events_ ||| EPOLLERR ||| EPOLLHUP) ∧ w.failures = [] ∧
        w.closes = 0 ∧ Run.Reaches step w (List.replicate 4 (.dispatch (.filled []) (.accepted 0))) fun w' =>
          w'.closes = 2 ∧ w'.failures = [.handleRead, .handleClose, .updateChannel]) by decide +kernel)
  obtain ⟨w', hrest, hcloses', hfailures'⟩ := hrest.exists
  refine ⟨w, w', hrun, hphase, hstate, ⟨[.enableRead, .disableRead], by decide, ?_⟩, hwithin, hrest, ?_, ?_⟩
  · rw [hevents]
    decide
  · rw [hcloses', hcloses]
  · rw [hfailures', hfailures]
    rfl

end World

end mudong.ev
