import Mudong.TcpConnection.Stream

namespace mudong.ev

/-- Every byte of the send had been accepted when the half-close was issued. -/
def HalfClose.Covers (half : HalfClose) (send : Send) : Prop :=
  ∃ before after, half.executed = before ++ send :: after ∧
    ((before ++ [send]).map Send.data).flatten <+: half.accepted

/-- A half-close covers every send that was executed if all executed bytes had been accepted. -/
theorem HalfClose.covers_of_mem {half : HalfClose} (hall : half.accepted = (half.executed.map Send.data).flatten)
    {send : Send} (hsend : send ∈ half.executed) : half.Covers send := by
  obtain ⟨before, after, hsplit⟩ := List.append_of_mem hsend
  refine ⟨before, after, hsplit, ?_⟩
  rw [hall, hsplit]
  refine ⟨(after.map Send.data).flatten, ?_⟩
  simp

/-- What an earlier half-close covers is covered by a later one. -/
theorem HalfClose.Covers.mono {half later : HalfClose} {send : Send} (h : half.Covers send)
    (hexecuted : half.executed <+: later.executed) (haccepted : half.accepted <+: later.accepted) :
    later.Covers send := by
  obtain ⟨before, after, hsplit, hbytes⟩ := h
  obtain ⟨more, hmore⟩ := hexecuted
  refine ⟨before, after ++ more, ?_, hbytes.trans haccepted⟩
  rw [← hmore, hsplit]
  simp

theorem HalfClose.Covers.mem {half : HalfClose} {send : Send} (h : half.Covers send) : send ∈ half.executed := by
  obtain ⟨before, after, hsplit, _⟩ := h
  simp [hsplit]

namespace Conn

/-- Whether `shutdownInLoop` calls `::shutdown(sockfd_, SHUT_WR)`. -/
def shutsDown (c : Conn) : Bool := c.state_ != .kDisconnected && !c.channel_.isWriting

/-- Whether a callback of the dispatch half-closes: `handleWrite` does when it empties the output buffer of a
disconnecting connection. -/
def stageHalves (c : Conn) (write : WriteResult) : Stage → Bool
  | .onWrite => Mask.has c.channel_.revents_ EPOLLOUT && (c.state_ == .kDisconnecting && c.drains write)
  | _ => false

def taskHalves (c : Conn) (task : Task) : Bool := task == .shutdownInLoop && c.shutsDown

def callHalves (c : Conn) : Api → Bool
  | .shutdown => c.state_ == .kConnected && !c.channel_.isWriting
  | _ => false

/-- What a step of the loop thread does to the output, and that a half-close, if it is one, finds nothing
left in the output buffer of an open connection. -/
structure Halves (halving : Bool) (c c' : Conn) : Prop where
  executed : c.executed <+: c'.executed
  accepted : c.accepted <+: c'.accepted
  halfCloses : c'.halfCloses = if halving then c.halfCloses ++ [⟨c.executed, c'.accepted⟩] else c.halfCloses
  settled : halving = true → c'.executed = c.executed ∧ (c.Open → c'.outputBuffer_.readable = [])

theorem Halves.of_same {c c' : Conn}
    (h : (c'.executed, c'.accepted, c'.halfCloses) = (c.executed, c.accepted, c.halfCloses)) :
    Halves false c c' := by
  simp only [Prod.mk.injEq] at h
  obtain ⟨hexecuted, haccepted, hhalf⟩ := h
  exact ⟨hexecuted ▸ List.prefix_refl _, haccepted ▸ List.prefix_refl _, hhalf, fun h => Bool.noConfusion h⟩

theorem shutdownInLoop_halves (c : Conn) : Halves c.shutsDown c c.shutdownInLoop := by
  unfold shutdownInLoop
  by_cases hshut : c.state_ ≠ .kDisconnected ∧ c.channel_.isWriting = false
  · have hflag : c.shutsDown = true := by simp [shutsDown, hshut]
    rw [if_pos hshut, hflag]
    refine ⟨List.prefix_refl _, List.prefix_refl _, rfl, fun _ => ⟨rfl, fun hopen => ?_⟩⟩
    by_contra hne
    simp [hopen.mirror.mpr hne] at hshut
  · have hflag : c.shutsDown = false := by
      simp only [ne_eq, not_and_or, not_not, Bool.not_eq_false] at hshut
      obtain h | h := hshut
      · simp [shutsDown, h]
      · simp [shutsDown, h]
    rw [if_neg hshut, hflag]
    exact .of_same rfl

theorem sendInLoop_halves (c : Conn) (send : Send) (result : WriteResult) :
    Halves false c (c.sendInLoop send result) := by
  refine ⟨?_, ?_, ?_, fun h => Bool.noConfusion h⟩
  · rw [sendInLoop_executed]
    exact List.prefix_append _ _
  · by_cases hlive : c.state_ = .kDisconnected
    · simp [sendInLoop, hlive]
    · obtain ⟨sent, _, haccepted, _⟩ := sendInLoop_spec hlive send result
      rw [haccepted]
      exact List.prefix_append _ _
  · rw [sendInLoop_halfCloses]
    rfl

theorem stopReadInLoop_halves (c : Conn) : Halves false c c.stopReadInLoop := by
  unfold stopReadInLoop
  split
  · exact .of_same rfl
  · exact .of_same rfl

theorem startReadInLoop_halves (c : Conn) : Halves false c c.startReadInLoop := by
  unfold startReadInLoop
  split
  · exact .of_same rfl
  · exact .of_same rfl

theorem forceCloseInLoop_halves (c : Conn) : Halves false c c.forceCloseInLoop := by
  unfold forceCloseInLoop
  split
  · exact .of_same rfl
  · exact .of_same rfl

/-- A close executes nothing and writes nothing. -/
theorem handleClose_same (c : Conn) : (c.handleClose.executed, c.handleClose.accepted, c.handleClose.halfCloses) =
    (c.executed, c.accepted, c.halfCloses) := rfl

theorem handleRead_halves (c : Conn) (read : Buffer.ReadvResult) : Halves false c (c.handleRead read) := by
  unfold handleRead
  dsimp only
  split
  · exact .of_same rfl
  · split
    · exact .of_same (handleClose_same _)
    · exact .of_same rfl

theorem handleWrite_halves (c : Conn) (write : WriteResult) :
    Halves (c.state_ == .kDisconnecting && c.drains write) c (c.handleWrite write) := by
  by_cases hlive : c.state_ = .kDisconnected
  · have hsame : c.handleWrite write = c := by simp [handleWrite, hlive]
    have hflag : (c.state_ == .kDisconnecting) = false := by simp [hlive]
    rw [hsame, hflag, Bool.false_and]
    exact .of_same rfl
  · obtain ⟨gone, haccepted, _, hexecuted, _, hdrained, hhalf⟩ := handleWrite_spec hlive write
    refine ⟨?_, ?_, ?_, ?_⟩
    · rw [hexecuted]
    · rw [haccepted]
      exact List.prefix_append _ _
    · rw [hhalf]
      simp only [Bool.and_eq_true, beq_iff_eq]
    · intro h
      simp only [Bool.and_eq_true] at h
      exact ⟨hexecuted, fun _ => hdrained h.2⟩

theorem runStage_halves (c : Conn) (read : Buffer.ReadvResult) (write : WriteResult) (stage : Stage) :
    Halves (c.stageHalves write stage) c (c.runStage read write stage) := by
  cases stage with
  | onClose =>
    simp only [runStage]
    split
    · exact .of_same (handleClose_same c)
    · exact .of_same rfl
  | onError =>
    simp only [runStage]
    split <;> exact .of_same rfl
  | onRead =>
    simp only [runStage]
    split
    · exact handleRead_halves c read
    · exact .of_same rfl
  | onWrite =>
    simp only [runStage]
    split
    · rename_i hout
      rw [stageHalves, hout, Bool.true_and]
      exact handleWrite_halves c write
    · rename_i hnot
      rw [stageHalves, Bool.eq_false_of_not_eq_true hnot, Bool.false_and]
      exact .of_same rfl

theorem runTask_halves (c : Conn) (write : WriteResult) (task : Task) :
    Halves (c.taskHalves task) c (c.runTask write task) := by
  cases task with
  | sendInLoop send => exact sendInLoop_halves c send write
  | shutdownInLoop => exact shutdownInLoop_halves c
  | forceCloseInLoop => exact forceCloseInLoop_halves c
  | stopRead => exact stopReadInLoop_halves c
  | startRead => exact startReadInLoop_halves c
  | writeComplete => exact .of_same rfl
  | highWaterMark len => exact .of_same rfl
  | other => exact .of_same rfl

theorem shutdown_halves (c : Conn) : Halves (c.callHalves .shutdown) c c.shutdown := by
  unfold shutdown
  dsimp only [stateAtomicGetAndSet]
  split
  · rename_i hconnected
    have hconnected : c.state_ = .kConnected := hconnected
    have hhalves := shutdownInLoop_halves
      { (c.check .shutdown (c.state_ ≠ .kDisconnected)).follow .loop with state_ := .kDisconnecting }
    have hflag : c.callHalves .shutdown = !c.channel_.isWriting := by simp [callHalves, hconnected]
    rw [hflag]
    exact ⟨hhalves.executed, hhalves.accepted, hhalves.halfCloses,
      fun h => (hhalves.settled h).imp_right (fun hempty hopen => hempty ⟨Or.inr rfl, hopen.mirror, hopen.armed⟩)⟩
  · rename_i hnot
    have hflag : c.callHalves .shutdown = false := by
      have hnot : c.state_ ≠ .kConnected := hnot
      simp [callHalves, hnot]
    rw [hflag]
    exact .of_same rfl

theorem callInLoop_halves (c : Conn) (write : WriteResult) (api : Api) :
    Halves (c.callHalves api) c (c.callInLoop write api) := by
  cases api with
  | send payload =>
    rw [callInLoop, send_eq]
    unfold sendChars
    split
    · exact .of_same rfl
    · have hhalves := sendInLoop_halves (c.observe ⟨.loop, c.observed.length, payload.data⟩)
        ⟨.loop, c.observed.length, payload.data⟩ write
      exact ⟨hhalves.executed, hhalves.accepted, hhalves.halfCloses, fun h => Bool.noConfusion h⟩
  | shutdown => exact shutdown_halves c
  | forceClose =>
    simp only [callInLoop, forceClose]
    split
    · split <;> exact .of_same rfl
    · exact .of_same rfl
  | stopRead => exact stopReadInLoop_halves c
  | startRead => exact startReadInLoop_halves c

end Conn

namespace World

/-- Whether a step issues `::shutdown(sockfd_, SHUT_WR)`. -/
def halving (w : World) : Label → Bool
  | .dispatch _ write =>
    match w.phase with
    | .handling (some stage) => w.stageHalves write stage
    | _ => false
  | .task _ =>
    match w.phase, w.tasks with
    | .running, task :: _ => w.taskHalves task
    | _, _ => false
  | .call api _ => w.callHalves api
  | _ => false

theorem step_halves {w w' : World} {l : Label} (hstep : w.step l = some w') :
    Conn.Halves (w.halving l) w.toConn w'.toConn := by
  cases step_moves hstep with
  | dispatch hphase hfits =>
    simp only [halving, hphase]
    exact Conn.runStage_halves w.toConn _ _ _
  | task hphase htasks hfits =>
    simp only [halving, hphase, htasks]
    exact Conn.runTask_halves w.toConn _ _
  | call hphase hfits => exact Conn.callInLoop_halves w.toConn _ _
  | _ => exact .of_same rfl

/-- Until the first half-close no byte is lost, and every half-close so far covers the sends in question. -/
structure HalvedInv (sends : List Send) (w : World) : Prop where
  inv : w.Inv
  whole : w.closes = 0 → w.halfCloses = [] → w.toConn.Whole
  grown : ∀ half ∈ w.halfCloses, half.executed <+: w.executed ∧ half.accepted <+: w.accepted
  covered : w.closes = 0 → ∀ half ∈ w.halfCloses, ∀ send ∈ sends, half.Covers send

theorem HalvedInv.step {sends : List Send} {w w' : World} {l : Label} (hinv : w.HalvedInv sends)
    (hunbroken : w.halfCloses = [] → l.unbroken = true)
    (hexecuted : w.halving l = true → ∀ send ∈ sends, send ∈ w.executed) (hstep : w.step l = some w') :
    w'.HalvedInv sends := by
  have hhalves := step_halves hstep
  have hclosed (hopen : w'.closes = 0) : w.closes = 0 := Nat.le_zero.mp (hopen ▸ step_closes_le hstep)
  have hwhole (hopen : w'.closes = 0) (hnone : w.halfCloses = []) : w'.toConn.Whole :=
    step_whole (hinv.inv.opened (hclosed hopen)) (hunbroken hnone) (hinv.whole (hclosed hopen) hnone) hstep
  have hgrown : ∀ half ∈ w.halfCloses, half.executed <+: w'.executed ∧ half.accepted <+: w'.accepted :=
    fun half hhalf => ⟨(hinv.grown half hhalf).1.trans hhalves.executed, (hinv.grown half hhalf).2.trans hhalves.accepted⟩
  have hhalf := hhalves.halfCloses
  cases hhalving : w.halving l with
  | false =>
    rw [hhalving] at hhalf
    have hsame : w'.halfCloses = w.halfCloses := hhalf
    refine ⟨hinv.inv.step hstep, ?_, ?_, ?_⟩
    · rw [hsame]
      exact hwhole
    · rw [hsame]
      exact hgrown
    · rw [hsame]
      exact fun hopen => hinv.covered (hclosed hopen)
  | true =>
    rw [hhalving] at hhalf
    have happend : w'.halfCloses = w.halfCloses ++ [⟨w.executed, w'.accepted⟩] := hhalf
    obtain ⟨hsame, hempty⟩ := hhalves.settled hhalving
    refine ⟨hinv.inv.step hstep, ?_, ?_, ?_⟩
    · intro _ hnone
      simp [happend] at hnone
    · intro half hmem
      rw [happend, List.mem_append, List.mem_singleton] at hmem
      obtain hold | rfl := hmem
      · exact hgrown half hold
      · exact ⟨hhalves.executed, List.prefix_refl _⟩
    · intro hopen half hmem send hsend
      rw [happend, List.mem_append, List.mem_singleton] at hmem
      obtain hold | rfl := hmem
      · exact hinv.covered (hclosed hopen) half hold send hsend
      · cases hfirst : w.halfCloses with
        | nil =>
          refine HalfClose.covers_of_mem ?_ (hexecuted hhalving send hsend)
          have hbytes := hwhole hopen hfirst
          unfold Conn.Whole at hbytes
          rw [hempty (hinv.inv.opened (hclosed hopen)), List.append_nil, hsame] at hbytes
          exact hbytes
        | cons first rest =>
          have hmem : first ∈ w.halfCloses := by simp [hfirst]
          have hcovers := hinv.covered (hclosed hopen) first hmem send hsend
          exact hcovers.mono (hinv.grown first hmem).1 (hgrown first hmem).2

theorem step_halfCloses_grow {w w' : World} {l : Label} (hstep : w.step l = some w') :
    w.halfCloses <+: w'.halfCloses := by
  rw [(step_halves hstep).halfCloses]
  split
  · exact List.prefix_append _ _
  · exact List.prefix_refl _

/-- The writes before the first half-close do not find the peer gone. -/
def UnbrokenUntilHalfClose (w : World) (l : Label) : Prop := w.halfCloses = [] → l.unbroken = true

/-- A half-close is issued only when the given sends have been executed: none of them is on its way to the
queue of the loop or waits in it. -/
def HalvesAfter (sends : List Send) (w : World) (l : Label) : Prop :=
  w.halving l = true → ∀ send ∈ sends, send ∈ w.executed

instance (w : World) (l : Label) : Decidable (w.UnbrokenUntilHalfClose l) := inferInstanceAs (Decidable (_ → _))

instance (sends : List Send) (w : World) (l : Label) : Decidable (w.HalvesAfter sends l) :=
  inferInstanceAs (Decidable (_ → _))

private theorem halvesAfter_of_covered {sends : List Send} {v w : World} {labels : List Label}
    (hcovered : ∀ half ∈ w.halfCloses, ∀ send ∈ sends, half.Covers send) (hrun : Run.exec step v labels = some w) :
    Run.Along step (HalvesAfter sends) v labels := by
  induction labels generalizing v with
  | nil => trivial
  | cons l labels ih =>
    obtain ⟨u, hstep, hrest⟩ := Run.exec_cons_eq_some.mp hrun
    refine ⟨fun hhalving send hsend => ?_, by rw [hstep]; exact ih hrest⟩
    have hkept : u.halfCloses <+: w.halfCloses :=
      Run.exec_preserves (I := fun w => u.halfCloses <+: w.halfCloses)
        (fun _ _ _ hinv hstep => hinv.trans (step_halfCloses_grow hstep)) (List.prefix_refl _) hrest
    have hhalf := (step_halves hstep).halfCloses
    rw [if_pos hhalving] at hhalf
    have hmem : ⟨v.executed, u.accepted⟩ ∈ w.halfCloses := by
      refine hkept.subset ?_
      rw [hhalf]
      simp
    exact (hcovered _ hmem send hsend).mem

/-- In a run without a close, a half-close finds every byte accepted that a thread has sent before it called
`shutdown()` exactly if no half-close overtakes such a send. -/
theorem half_close_graceful_iff {others wakeups : Nat} {labels : List Label} {w : World}
    (hwrites : Run.Along step UnbrokenUntilHalfClose (established others wakeups) labels)
    (hrun : Run.exec step (established others wakeups) labels = some w) (hopen : w.closes = 0) :
    (∀ half ∈ w.halfCloses, ∀ send ∈ w.followed, half.Covers send) ↔
      Run.Along step (HalvesAfter w.followed) (established others wakeups) labels := by
  constructor
  · intro hcovered
    exact halvesAfter_of_covered hcovered hrun
  · intro hafter
    have hinit : (established others wakeups).HalvedInv w.followed := by
      refine ⟨established_inv others wakeups, fun _ _ => ValidBuffer.readable_init _, ?_, ?_⟩
      · intro half hmem
        cases hmem
      · intro _ half hmem
        cases hmem
    have hinv : w.HalvedInv w.followed :=
      Run.exec_invariant (I := HalvedInv w.followed) (fun _ _ _ hinv hl hstep => hinv.step hl.1 hl.2 hstep) hinit
        (hwrites.and hafter) hrun
    exact hinv.covered hopen

theorem half_close_graceful_after_queue : ∃ w : World,
    Run.exec step (established 0 0)
      [.start 0 (.send (.stringView [3])), .advance 0, .advance 0, .start 0 .shutdown, .advance 0, .advance 0,
        .advance 0, .swap, .task (.accepted 1), .task (.accepted 0)] = some w ∧
    w.followed = [⟨.other 0, 0, [3]⟩] ∧ w.halfCloses ≠ [] ∧
      ∀ half ∈ w.halfCloses, ∀ send ∈ w.followed, half.Covers send := by
  apply Run.Reaches.exists_of (p := fun w => w.followed = [⟨.other 0, 0, [3]⟩] ∧ w.halfCloses ≠ [] ∧ w.closes = 0)
  · decide +kernel
  · rintro w hrun ⟨hfollowed, hhalf, hopen⟩
    refine ⟨hfollowed, hhalf, (half_close_graceful_iff (by decide +kernel) hrun hopen).mpr ?_⟩
    rw [hfollowed]
    decide +kernel

/-- A thread sends and calls `shutdown()` while the loop thread writes the rest of an earlier send. -/
def sendThenShutdownDuringDrain : List Label :=
  [.call (.send (.chars [1, 2])) (.accepted 1), .swap, .endTasks, .poll (some EPOLLOUT),
    .start 0 (.send (.stringView [3])), .advance 0, .advance 0,
    .start 0 .shutdown, .advance 0, .advance 0, .advance 0,
    .dispatch (.failed 0) (.accepted 0), .dispatch (.failed 0) (.accepted 0), .dispatch (.failed 0) (.accepted 0),
    .dispatch (.failed 0) (.accepted 1)]

private theorem sendThenShutdownDuringDrain_reaches :
    Run.Reaches step (established 0 0) sendThenShutdownDuringDrain fun w =>
      w.closes = 0 ∧ ∃ half ∈ w.halfCloses, ∃ send ∈ w.followed, send ∉ half.executed := by
  decide +kernel

/-- The drain branch of `handleWrite` half-closes while a send that its thread has made before `shutdown()`
still waits in the queue of the loop. -/
theorem half_close_overtakes_send : ∃ w : World,
    Run.Along step UnbrokenUntilHalfClose (established 0 0) sendThenShutdownDuringDrain ∧
    Run.exec step (established 0 0) sendThenShutdownDuringDrain = some w ∧ w.closes = 0 ∧
      ¬∀ half ∈ w.halfCloses, ∀ send ∈ w.followed, half.Covers send := by
  obtain ⟨w, hrun, hopen, half, hhalf, send, hsend, hmissing⟩ := sendThenShutdownDuringDrain_reaches.exists
  exact ⟨w, by decide +kernel, hrun, hopen, fun h => hmissing (h half hhalf send hsend).mem⟩

end World

end mudong.ev
