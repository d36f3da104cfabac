import Mudong.TcpConnection.HalfClose

namespace mudong.ev

namespace Conn

theorem sendInLoop_refused (c : Conn) (send : Send) (errno : Nat) :
    (c.sendInLoop send (.failed errno)).accepted = c.accepted := by
  have hdirect (d : Conn) : (d.writeDirectly send.data (.failed errno)).1.accepted = d.accepted := by
    unfold writeDirectly
    split <;> rfl
  have hrest (d : Conn) (n remain : Nat) (faultError : Bool) :
      (d.bufferRest send.data n remain faultError).accepted = d.accepted := by
    unfold bufferRest
    dsimp only
    split
    · split <;> rfl
    · rfl
  unfold sendInLoop
  dsimp only
  split
  · rfl
  · exact (hrest _ _ _ _).trans (hdirect _)

theorem handleWrite_refused (c : Conn) (errno : Nat) : (c.handleWrite (.failed errno)).accepted = c.accepted := by
  unfold handleWrite
  split <;> rfl

theorem handleRead_accepted (c : Conn) (read : Buffer.ReadvResult) : (c.handleRead read).accepted = c.accepted := by
  unfold handleRead
  dsimp only
  split
  · rfl
  · split <;> rfl

theorem runStage_refused (c : Conn) (read : Buffer.ReadvResult) (errno : Nat) (stage : Stage) :
    (c.runStage read (.failed errno) stage).accepted = c.accepted := by
  cases stage with
  | onClose =>
    simp only [runStage]
    split <;> rfl
  | onError =>
    simp only [runStage]
    split <;> rfl
  | onRead =>
    simp only [runStage]
    split
    · exact handleRead_accepted c read
    · rfl
  | onWrite =>
    simp only [runStage]
    split
    · exact handleWrite_refused c errno
    · rfl

theorem runTask_refused (c : Conn) (errno : Nat) (task : Task) :
    (c.runTask (.failed errno) task).accepted = c.accepted := by
  cases task with
  | sendInLoop send => exact sendInLoop_refused c send errno
  | shutdownInLoop =>
    simp only [runTask, shutdownInLoop]
    split <;> rfl
  | forceCloseInLoop =>
    simp only [runTask, forceCloseInLoop]
    split <;> rfl
  | stopRead =>
    simp only [runTask, stopReadInLoop]
    split <;> rfl
  | startRead =>
    simp only [runTask, startReadInLoop]
    split <;> rfl
  | writeComplete => rfl
  | highWaterMark len => rfl
  | other => rfl

theorem callInLoop_refused (c : Conn) (errno : Nat) (api : Api) :
    (c.callInLoop (.failed errno) api).accepted = c.accepted := by
  cases api with
  | send payload =>
    rw [callInLoop, send_eq]
    unfold sendChars
    split
    · rfl
    · exact sendInLoop_refused (c.observe _) _ errno
  | shutdown =>
    simp only [callInLoop, shutdown]
    split
    · exact runTask_refused _ errno .shutdownInLoop
    · rfl
  | forceClose =>
    simp only [callInLoop, forceClose]
    split
    · split <;> rfl
    · rfl
  | stopRead => exact runTask_refused c errno .stopRead
  | startRead => exact runTask_refused c errno .startRead

end Conn

/-- The writes of the step are all refused. -/
def Label.refused : Label → Bool
  | .dispatch _ (.accepted _) | .task (.accepted _) | .call _ (.accepted _) => false
  | _ => true

namespace World

/-- A step whose writes are refused leaves what the kernel has accepted as it was. -/
theorem step_refused {w w' : World} {l : Label} (hrefused : l.refused = true) (hstep : w.step l = some w') :
    w'.accepted = w.accepted := by
  cases step_moves hstep with
  | dispatch hphase hfits =>
    rename_i read write stage
    cases write with
    | failed errno => exact Conn.runStage_refused w.toConn read errno stage
    | accepted n => cases hrefused
  | task hphase htasks hfits =>
    rename_i write task rest
    cases write with
    | failed errno => exact Conn.runTask_refused w.toConn errno task
    | accepted n => cases hrefused
  | call hphase hfits =>
    rename_i api write
    cases write with
    | failed errno => exact Conn.callInLoop_refused w.toConn errno api
    | accepted n => cases hrefused
  | _ => rfl

/-- The result of the `::readv` that a step makes. -/
def readv (w : World) : Label → Option Buffer.ReadvResult
  | .dispatch read _ =>
    if w.phase = .handling (some .onRead) ∧
        Mask.has w.channel_.revents_ (EPOLLIN ||| EPOLLPRI ||| EPOLLRDHUP) = true then some read
    else none
  | _ => none

/-- What has been executed and accepted, around the first half-close. Until then all executed bytes are with the
kernel or in the output buffer; from then on the kernel has accepted exactly the bytes of the sends executed before
it. -/
structure SentInv (w : World) : Prop where
  inv : w.Inv
  whole : w.closes = 0 → w.halfCloses = [] → w.toConn.Whole
  halved : w.closes = 0 → ∀ half, w.halfCloses.head? = some half →
    w.accepted = (half.executed.map Send.data).flatten

theorem established_sentInv (others wakeups : Nat) : (established others wakeups).SentInv := by
  refine ⟨established_inv others wakeups, fun _ _ => ValidBuffer.readable_init _, fun _ half hhalf => ?_⟩
  cases hhalf

theorem SentInv.step {w w' : World} {l : Label} (hinv : w.SentInv) (hunbroken : w.UnbrokenUntilHalfClose l)
    (hrefused : w.halfCloses ≠ [] → l.refused = true) (hstep : w.step l = some w') : w'.SentInv := by
  have hhalves := step_halves hstep
  have hclosed (hopen : w'.closes = 0) : w.closes = 0 := Nat.le_zero.mp (hopen ▸ step_closes_le hstep)
  have hwhole (hopen : w'.closes = 0) (hnone : w.halfCloses = []) : w'.toConn.Whole :=
    step_whole (hinv.inv.opened (hclosed hopen)) (hunbroken hnone) (hinv.whole (hclosed hopen) hnone) hstep
  refine ⟨hinv.inv.step hstep, ?_, ?_⟩
  · intro hopen hnone
    have hwas : w.halfCloses = [] := List.prefix_nil.mp (hnone ▸ step_halfCloses_grow hstep)
    exact hwhole hopen hwas
  · intro hopen half hhalf
    cases hfirst : w.halfCloses with
    | nil =>
      -- The step is the first half-close, and it finds the output buffer empty.
      have hhalving : w.halving l = true := by
        by_contra hnot
        rw [Bool.not_eq_true] at hnot
        rw [hhalves.halfCloses, hnot, hfirst] at hhalf
        cases hhalf
      rw [hhalves.halfCloses, if_pos hhalving, hfirst] at hhalf
      obtain ⟨hsame, hempty⟩ := hhalves.settled hhalving
      obtain rfl : (⟨w.executed, w'.accepted⟩ : HalfClose) = half := Option.some.inj hhalf
      have hbytes := hwhole hopen hfirst
      unfold Conn.Whole at hbytes
      rwa [hempty (hinv.inv.opened (hclosed hopen)), List.append_nil, hsame] at hbytes
    | cons first rest =>
      have hkept : w'.halfCloses.head? = some first := by
        obtain ⟨more, hmore⟩ := step_halfCloses_grow hstep
        rw [← hmore, hfirst]
        rfl
      obtain rfl : first = half := Option.some.inj (hkept.symm.trans hhalf)
      rw [step_refused (hrefused (by simp [hfirst])) hstep]
      exact hinv.halved (hclosed hopen) first (by rw [hfirst]; rfl)

end World

/-- Two connections that are the ends of one TCP connection: what each end has read so far, and whether it has read
the end of the stream. -/
structure Link where
  ends : Bool → World
  received : Bool → List UInt8
  eof : Bool → Bool

namespace Link

def init (others wakeups : Bool → Nat) : Link :=
  { ends := fun i => World.established (others i) (wakeups i), received := fun _ => [], eof := fun _ => false }

/-- What the kernel has accepted from an end and not yet delivered to the other. -/
def inFlight (k : Link) (i : Bool) : List UInt8 := (k.ends i).accepted.drop (k.received (!i)).length

/-- What `::readv` may answer at an end: an error, the next bytes of the stream, or its end, once the other end has
half-closed or closed and everything it wrote has been read. -/
def Delivers (k : Link) (i : Bool) : Buffer.ReadvResult → Prop
  | .failed _ => True
  | .filled [] => k.inFlight (!i) = [] ∧ ((k.ends (!i)).halfCloses ≠ [] ∨ (k.ends (!i)).closes ≠ 0)
  | .filled (byte :: data) => byte :: data <+: k.inFlight (!i)

instance decidableDelivers (k : Link) (i : Bool) : ∀ read, Decidable (k.Delivers i read)
  | .failed _ => inferInstanceAs (Decidable True)
  | .filled [] => inferInstanceAs (Decidable (_ ∧ (_ ∨ _)))
  | .filled (_ :: _) => inferInstanceAs (Decidable (_ <+: _))

/-- The kernel's part in a step: it delivers the stream, and accepts nothing from an end that has half-closed. -/
def Allows (k : Link) (i : Bool) (l : Label) : Prop :=
  (∀ read ∈ (k.ends i).readv l, k.Delivers i read) ∧ ((k.ends i).halfCloses ≠ [] → l.refused = true)

instance (k : Link) (i : Bool) (l : Label) : Decidable (k.Allows i l) := inferInstanceAs (Decidable (_ ∧ _))

/-- The bytes of a read. -/
def arrived : Option Buffer.ReadvResult → List UInt8
  | some (.filled data) => data
  | _ => []

/-- One step of one end. -/
def step (k : Link) (l : Bool × Label) : Option Link :=
  if k.Allows l.1 l.2 then
    ((k.ends l.1).step l.2).map fun w =>
      { ends := Function.update k.ends l.1 w
        received := Function.update k.received l.1 (k.received l.1 ++ arrived ((k.ends l.1).readv l.2))
        eof := Function.update k.eof l.1 (k.eof l.1 || decide ((k.ends l.1).readv l.2 = some (.filled []))) }
  else none

/-- No write finds the other end gone before its own end has half-closed. -/
def Unbroken (k : Link) (l : Bool × Label) : Prop := (k.ends l.1).UnbrokenUntilHalfClose l.2

instance (k : Link) (l : Bool × Label) : Decidable (k.Unbroken l) :=
  inferInstanceAs (Decidable ((k.ends l.1).UnbrokenUntilHalfClose l.2))

/-- In both directions the reader has a prefix of what was accepted, and all of it after the end of the stream. -/
structure Inv (k : Link) : Prop where
  sent : ∀ i, (k.ends i).SentInv
  received : ∀ i, k.received (!i) <+: (k.ends i).accepted
  eof : ∀ i, k.eof (!i) = true → (k.ends i).closes = 0 →
    (k.ends i).halfCloses ≠ [] ∧ k.received (!i) = (k.ends i).accepted

theorem init_inv (others wakeups : Bool → Nat) : (init others wakeups).Inv := by
  refine ⟨fun i => World.established_sentInv _ _, fun i => List.nil_prefix, fun i heof => ?_⟩
  cases heof

/-- What a read takes is the front of what is in flight. -/
theorem arrived_prefix {k : Link} {i : Bool} {l : Label} (hallows : k.Allows i l) :
    arrived ((k.ends i).readv l) <+: k.inFlight (!i) := by
  cases hreads : (k.ends i).readv l with
  | none => exact List.nil_prefix
  | some read =>
    have hdelivers := hallows.1 read hreads
    match read with
    | .failed errno => exact List.nil_prefix
    | .filled [] => exact List.nil_prefix
    | .filled (byte :: data) => exact hdelivers

theorem received_append_inFlight {k : Link} {i : Bool} (h : k.received (!i) <+: (k.ends i).accepted) :
    k.received (!i) ++ k.inFlight i = (k.ends i).accepted := by
  obtain ⟨rest, hrest⟩ := h
  rw [inFlight, ← hrest, List.drop_left]

/-- A step of the sending end: it may only add to what has been accepted, and nothing once it has half-closed. -/
private theorem Inv.sends {k : Link} {i : Bool} {l : Label} {w : World} (hinv : k.Inv) (hallows : k.Allows i l)
    (hstep : (k.ends i).step l = some w) :
    k.received (!i) <+: w.accepted ∧
      (k.eof (!i) = true → w.closes = 0 → w.halfCloses ≠ [] ∧ k.received (!i) = w.accepted) := by
  refine ⟨(hinv.received i).trans (World.step_halves hstep).accepted, fun heof hopen => ?_⟩
  have hwas : (k.ends i).closes = 0 := Nat.le_zero.mp (hopen ▸ World.step_closes_le hstep)
  obtain ⟨hhalved, hall⟩ := hinv.eof i heof hwas
  refine ⟨fun hnone => hhalved (List.prefix_nil.mp (hnone ▸ World.step_halfCloses_grow hstep)), ?_⟩
  rw [World.step_refused (hallows.2 hhalved) hstep]
  exact hall

/-- A step of the reading end: it takes the next bytes of the stream, or finds its end. -/
private theorem Inv.reads {k : Link} {i : Bool} {l : Label} (hinv : k.Inv) (hallows : k.Allows (!i) l) :
    k.received (!i) ++ arrived ((k.ends (!i)).readv l) <+: (k.ends i).accepted ∧
      ((k.eof (!i) || decide ((k.ends (!i)).readv l = some (.filled []))) = true → (k.ends i).closes = 0 →
        (k.ends i).halfCloses ≠ [] ∧ k.received (!i) ++ arrived ((k.ends (!i)).readv l) = (k.ends i).accepted) := by
  have hsplit := received_append_inFlight (hinv.received i)
  have harrived := arrived_prefix hallows
  rw [Bool.not_not] at harrived
  refine ⟨?_, fun heof hopen => ?_⟩
  · rw [← hsplit]
    exact (List.prefix_append_right_inj _).mpr harrived
  · have hdone : (k.ends i).halfCloses ≠ [] ∧ k.inFlight i = [] := by
      rw [Bool.or_eq_true, decide_eq_true_eq] at heof
      obtain heof | hreads := heof
      · obtain ⟨hhalved, hall⟩ := hinv.eof i heof hopen
        exact ⟨hhalved, by rw [inFlight, hall, List.drop_length]⟩
      · have hend := hallows.1 (.filled []) hreads
        simp only [Delivers, Bool.not_not] at hend
        exact ⟨hend.2.resolve_right fun hclosed => hclosed hopen, hend.1⟩
    rw [hdone.2] at hsplit harrived
    rw [List.prefix_nil.mp harrived]
    exact ⟨hdone.1, hsplit⟩

theorem Inv.step {k k' : Link} {l : Bool × Label} (hinv : k.Inv) (hunbroken : k.Unbroken l)
    (hstep : k.step l = some k') : k'.Inv := by
  obtain ⟨i, l⟩ := l
  simp only [Link.step, Option.ite_none_right_eq_some, Option.map_eq_some_iff] at hstep
  obtain ⟨hallows, w, hw, rfl⟩ := hstep
  have hcases (j : Bool) : j = i ∨ i = !j := by cases i <;> cases j <;> simp
  refine ⟨fun j => ?_, fun j => ?_, fun j => ?_⟩
  · obtain rfl | rfl := hcases j
    · simpa using (hinv.sent j).step hunbroken hallows.2 hw
    · simpa using hinv.sent j
  · obtain rfl | rfl := hcases j
    · simpa using (hinv.sends hallows hw).1
    · simpa using (hinv.reads hallows).1
  · obtain rfl | rfl := hcases j
    · simpa using (hinv.sends hallows hw).2
    · simpa using (hinv.reads hallows).2

/-- Two connections joined by a byte stream, in every interleaving of their loops and threads, as long as no write
finds the other end gone. Before an end half-closes, what the other has read, what is in flight and the output buffer
are the bytes of all executed sends, each once and in order; from its half-close on, what is read and in flight are
those of the sends executed before it, and a reader that finds the end of the stream has read all of them. -/
theorem reads_what_was_sent {others wakeups : Bool → Nat} {labels : List (Bool × Label)} {k : Link}
    (hwrites : Run.Along step Unbroken (init others wakeups) labels)
    (hrun : Run.exec step (init others wakeups) labels = some k) (i : Bool) (hopen : (k.ends i).closes = 0) :
    ((k.ends i).halfCloses = [] → k.received (!i) ++ (k.inFlight i ++ (k.ends i).outputBuffer_.readable) =
      ((k.ends i).executed.map Send.data).flatten) ∧
    (∀ half, (k.ends i).halfCloses.head? = some half →
      k.received (!i) ++ k.inFlight i = (half.executed.map Send.data).flatten) ∧
    (k.eof (!i) = true → ∃ half, (k.ends i).halfCloses.head? = some half ∧
      k.received (!i) = (half.executed.map Send.data).flatten) := by
  have hinv : k.Inv :=
    Run.exec_invariant (fun _ _ _ hinv hl hstep => hinv.step hl hstep) (init_inv others wakeups) hwrites hrun
  have hsplit := received_append_inFlight (hinv.received i)
  refine ⟨fun hnone => ?_, fun half hhalf => ?_, fun heof => ?_⟩
  · rw [← List.append_assoc, hsplit]
    exact (hinv.sent i).whole hopen hnone
  · rw [hsplit]
    exact (hinv.sent i).halved hopen half hhalf
  · obtain ⟨hhalved, hall⟩ := hinv.eof i heof hopen
    obtain ⟨half, rest, hfirst⟩ := List.exists_cons_of_ne_nil hhalved
    have hhead : (k.ends i).halfCloses.head? = some half := by rw [hfirst]; rfl
    exact ⟨half, hhead, hall.trans ((hinv.sent i).halved hopen half hhead)⟩

/-- One end sends three bytes, of which the kernel takes two at once, and shuts down; the backlog is written before the
half-close, and the other end reads everything in two pieces before it finds the end. -/
theorem reads_what_was_sent_to_the_end : ∃ k : Link,
    Run.exec step (init (fun _ => 0) (fun _ => 0))
      [(true, .call (.send (.chars [1, 2, 3])) (.accepted 2)), (true, .call .shutdown (.failed 0)), (true, .swap),
        (true, .endTasks), (false, .swap), (false, .endTasks), (false, .poll (some EPOLLIN)),
        (false, .dispatch (.failed 0) (.failed 0)), (false, .dispatch (.failed 0) (.failed 0)),
        (false, .dispatch (.filled [1, 2]) (.failed 0)), (false, .dispatch (.failed 0) (.failed 0)),
        (true, .poll (some EPOLLOUT)), (true, .dispatch (.failed 0) (.failed 0)),
        (true, .dispatch (.failed 0) (.failed 0)), (true, .dispatch (.failed 0) (.failed 0)),
        (true, .dispatch (.failed 0) (.accepted 1)), (false, .swap), (false, .endTasks),
        (false, .poll (some EPOLLIN)), (false, .dispatch (.failed 0) (.failed 0)),
        (false, .dispatch (.failed 0) (.failed 0)), (false, .dispatch (.filled [3]) (.failed 0)),
        (false, .dispatch (.failed 0) (.failed 0)), (false, .swap), (false, .endTasks),
        (false, .poll (some EPOLLIN)), (false, .dispatch (.failed 0) (.failed 0)),
        (false, .dispatch (.failed 0) (.failed 0)), (false, .dispatch (.filled []) (.failed 0))] = some k ∧
    k.eof false = true ∧ (k.ends false).closes = 1 ∧ ∃ half, (k.ends true).halfCloses.head? = some half ∧
      k.received false = (half.executed.map Send.data).flatten ∧ k.received false = [1, 2, 3] := by
  apply Run.Reaches.exists_of (p := fun k => k.eof false = true ∧ (k.ends false).closes = 1 ∧
    (k.ends true).closes = 0 ∧ k.received false = [1, 2, 3])
  · decide +kernel
  · rintro k hrun ⟨heof, hclosed, hopen, hall⟩
    obtain ⟨half, hhead, hreceived⟩ := (reads_what_was_sent (by decide +kernel) hrun true hopen).2.2 heof
    exact ⟨heof, hclosed, half, hhead, hreceived, hall⟩

end Link

end mudong.ev
