import Mudong.TcpConnection.Open

namespace mudong.ev

namespace InterestOp

/-- No operation but `enableRead` asks for a flag other than `EPOLLOUT`. -/
theorem lacks_apply {op : InterestOp} (hop : op ≠ .enableRead) {e f : Events} (hout : Mask.has EPOLLOUT f = false)
    (h : Mask.has e f = false) : Mask.has (op.apply e) f = false := by
  cases op with
  | enableRead => exact (hop rfl).elim
  | enableWrite => rw [apply, Mask.has_or, h, hout, Bool.or_false]
  | disableRead => exact Mask.has_clear_of_not h
  | disableWrite => exact Mask.has_clear_of_not h
  | disableAll => exact Mask.has_zero f

end InterestOp

namespace Conn

/-- Nothing is read, and no interest but the one in output is added. -/
structure Unread (c c' : Conn) : Prop where
  lacks : ∀ f, Mask.has EPOLLOUT f = false → Mask.has c.channel_.events_ f = false →
    Mask.has c'.channel_.events_ f = false
  messages : c'.messages = c.messages
  inputBuffer_ : c'.inputBuffer_ = c.inputBuffer_

theorem Unread.of_same {c c' : Conn}
    (h : (c'.channel_.events_, c'.messages, c'.inputBuffer_) = (c.channel_.events_, c.messages, c.inputBuffer_)) :
    Unread c c' := by
  simp only [Prod.mk.injEq] at h
  obtain ⟨hevents, hmessages, hbuffer⟩ := h
  exact ⟨fun f _ hf => by rw [hevents]; exact hf, hmessages, hbuffer⟩

theorem Unread.refl (c : Conn) : Unread c c := .of_same rfl

theorem Unread.trans {c d e : Conn} (h : Unread c d) (h' : Unread d e) : Unread c e :=
  ⟨fun f hout hf => h'.lacks f hout (h.lacks f hout hf), h'.messages.trans h.messages,
    h'.inputBuffer_.trans h.inputBuffer_⟩

theorem interest_unread (c : Conn) {op : InterestOp} (hop : op ≠ .enableRead) : Unread c (c.interest op) := by
  refine ⟨fun f hout hf => ?_, rfl, rfl⟩
  rw [interest_events_]
  exact InterestOp.lacks_apply hop hout hf

theorem unread_rule : LoopRule Unread where
  refl := .refl
  trans := .trans
  record _ _ _ _ _ := .of_same rfl
  enableWrite c := interest_unread c (by simp)
  disableWrite c := interest_unread c (by simp)
  notice _ _ _ := .of_same rfl
  history _ _ _ _ _ _ _ _ := .of_same rfl
  disableRead c := interest_unread c (by simp)
  disableAll c := interest_unread c (by simp)
  forceCloses _ := .of_same rfl

/-- The operations other than `startRead()`. -/
theorem callInLoop_unread (c : Conn) (result : WriteResult) {api : Api} (hapi : api ≠ .startRead) :
    Unread c (c.callInLoop result api) :=
  unread_rule.callInLoop c result fun hstart => (hapi hstart).elim

theorem runTask_unread (c : Conn) (result : WriteResult) {task : Task} (htask : task ≠ .startRead) :
    Unread c (c.runTask result task) :=
  unread_rule.runTask c result fun hstart => (htask hstart).elim

/-- The callbacks of a dispatch other than the read callback. -/
theorem runStage_unread (c : Conn) (read : Buffer.ReadvResult) (write : WriteResult) {stage : Stage}
    (hread : stage = .onRead → Mask.has c.channel_.revents_ (EPOLLIN ||| EPOLLPRI ||| EPOLLRDHUP) = false) :
    Unread c (c.runStage read write stage) := by
  refine unread_rule.runStage c read write fun hstage hbits => ?_
  simp [hread hstage] at hbits

/-- A read leaves the interest alone or closes. -/
theorem handleRead_lacks {c : Conn} (result : Buffer.ReadvResult) {f : Events}
    (h : Mask.has c.channel_.events_ f = false) : Mask.has (c.handleRead result).channel_.events_ f = false := by
  unfold handleRead
  dsimp only
  split
  · exact h
  · split
    · rw [handleClose_events_]
      exact Mask.has_zero f
    · exact h

theorem startReadInLoop_lacks {c : Conn} {f : Events} (hread : Mask.has (EPOLLIN ||| EPOLLPRI) f = false)
    (h : Mask.has c.channel_.events_ f = false) : Mask.has c.startReadInLoop.channel_.events_ f = false := by
  unfold startReadInLoop
  split
  · exact h
  · rw [enableRead, interest_events_, InterestOp.apply, Mask.has_or, h, hread, Bool.or_false]

/-- `stopRead` withdraws the interest in input. -/
theorem stopReadInLoop_isReading (c : Conn) : c.stopReadInLoop.channel_.isReading = false := by
  unfold stopReadInLoop
  split
  · simp [disableRead, Channel.isReading, InterestOp.apply]
  · simpa using ‹¬c.channel_.isReading = true›

end Conn

namespace World

/-- Whether a step executes the body of `stopRead()` in the loop. -/
def stopsReading (w : World) : Label → Bool
  | .call .stopRead _ => true
  | .task _ => w.tasks.head? == some .stopRead
  | _ => false

/-- Whether a step executes the body of `startRead()` in the loop. -/
def startsReading (w : World) : Label → Bool
  | .call .startRead _ => true
  | .task _ => w.tasks.head? == some .startRead
  | _ => false

/-- The reported mask that a step holds against the bits of the read callback. -/
def considers (w : World) : Label → List Events
  | .dispatch _ _ => if w.phase = .handling (some .onRead) then [w.channel_.revents_] else []
  | _ => []

/-- The reported mask with which a step calls `handleRead`. -/
def reads (w : World) (l : Label) : List Events :=
  (w.considers l).filter fun revents => Mask.has revents (EPOLLIN ||| EPOLLPRI ||| EPOLLRDHUP)

/-- Only the user takes from the input buffer, and nothing is added to it. -/
def InputKept (w : World) (l : Label) : Prop :=
  ∀ w', w.step l = some w' → w'.inputBuffer_ = w.inputBuffer_ ∨ ∃ left, l = .useInput left

variable {w w' : World} {l : Label}

/-- A dispatch begins with a report, and the mask stays for the whole of it. -/
theorem step_dispatches (hstep : w.step l = some w') :
    (∃ revents_, Reportable w.entry revents_ ∧ w'.channel_ = { w.channel_ with revents_ }) ∨
      w'.channel_.revents_ = w.channel_.revents_ ∧
        ∀ stage, w'.phase = .handling (some stage) → ∃ stage', w.phase = .handling (some stage') := by
  cases step_moves hstep with
  | pollOther hphase => exact .inr ⟨rfl, by simp⟩
  | @poll revents_ hphase hreport => exact .inl ⟨revents_, hreport, rfl⟩
  | @dispatch read write stage hphase hfits =>
    exact .inr ⟨(Conn.runStage_settled w.toConn read write stage).revents_, fun _ _ => ⟨stage, hphase⟩⟩
  | swap hphase => exact .inr ⟨rfl, by simp⟩
  | @task write task rest hphase htasks hfits =>
    exact .inr ⟨(Conn.runTask_settled w.toConn write task).revents_, fun stage h => ⟨stage, h⟩⟩
  | endTasks hphase htasks => exact .inr ⟨rfl, by simp⟩
  | @call api write hphase hfits =>
    exact .inr ⟨(Conn.callInLoop_calm w.toConn write api).revents_, fun stage h => ⟨stage, h⟩⟩
  | _ => exact .inr ⟨rfl, fun stage h => ⟨stage, h⟩⟩

/-- A step that neither reads nor starts the reading leaves the input alone, unless the user takes from it. -/
theorem step_unread (hreads : w.reads l = []) (hstarts : w.startsReading l = false) (hstep : w.step l = some w') :
    Conn.Unread w.toConn w'.toConn ∨ w'.messages = w.messages ∧ ∃ left, l = .useInput left := by
  cases step_moves hstep with
  | @dispatch read write stage hphase hfits =>
    refine .inl (Conn.runStage_unread w.toConn read write fun hstage => ?_)
    subst hstage
    simpa [reads, considers, hphase] using hreads
  | @task write task rest hphase htasks hfits =>
    refine .inl (Conn.runTask_unread w.toConn write ?_)
    rintro rfl
    simp [startsReading, htasks] at hstarts
  | @call api write hphase hfits =>
    refine .inl (Conn.callInLoop_unread w.toConn write ?_)
    rintro rfl
    simp [startsReading] at hstarts
  | useInput hphase => exact .inr ⟨rfl, _, rfl⟩
  | _ => exact .inl (.of_same rfl)

/-- Interest in anything but output comes from `startRead()` alone. -/
theorem step_lacks {f : Events} (hout : Mask.has EPOLLOUT f = false)
    (hstarts : w.startsReading l = true → Mask.has (EPOLLIN ||| EPOLLPRI) f = false)
    (h : Mask.has w.channel_.events_ f = false) (hstep : w.step l = some w') :
    Mask.has w'.channel_.events_ f = false := by
  cases step_moves hstep with
  | @dispatch read write stage hphase hfits =>
    by_cases hread : stage = .onRead ∧ Mask.has w.channel_.revents_ (EPOLLIN ||| EPOLLPRI ||| EPOLLRDHUP) = true
    · obtain ⟨rfl, hbits⟩ := hread
      simp only [Conn.runStage, hbits, if_true]
      exact Conn.handleRead_lacks read h
    · refine (Conn.runStage_unread w.toConn read write fun hstage => ?_).lacks f hout h
      simpa using fun hbits => hread ⟨hstage, hbits⟩
  | @task write task rest hphase htasks hfits =>
    by_cases htask : task = .startRead
    · subst htask
      exact Conn.startReadInLoop_lacks (hstarts (by simp [startsReading, htasks])) h
    · exact (Conn.runTask_unread w.toConn write htask).lacks f hout h
  | @call api write hphase hfits =>
    by_cases hapi : api = .startRead
    · subst hapi
      exact Conn.startReadInLoop_lacks (hstarts rfl) h
    · exact (Conn.callInLoop_unread w.toConn write hapi).lacks f hout h
  | _ => exact h

/-- Nobody ever asks for `EPOLLRDHUP`. -/
structure Plain (w : World) : Prop where
  inv : w.Inv
  rdhup : Mask.has w.channel_.events_ EPOLLRDHUP = false

theorem Plain.step (h : w.Plain) (hstep : w.step l = some w') : w'.Plain :=
  ⟨h.inv.step hstep, step_lacks (by decide) (fun _ => by decide) h.rdhup hstep⟩

theorem established_plain (others wakeups : Nat) : (established others wakeups).Plain := by
  have hevents : (established others wakeups).channel_.events_ = InterestOp.enableRead.apply 0 :=
    Conn.interest_events_ _ _
  refine ⟨established_inv others wakeups, ?_⟩
  rw [hevents]
  decide

/-- The connection has been told to stop reading. -/
structure Stopped (w : World) : Prop extends Plain w where
  reading : Mask.has w.channel_.events_ EPOLLIN = false

theorem Stopped.step (h : w.Stopped) (hstarts : w.startsReading l = false) (hstep : w.step l = some w') :
    w'.Stopped :=
  ⟨h.toPlain.step hstep, step_lacks (by decide) (fun hstarts' => by simp [hstarts] at hstarts') h.reading hstep⟩

theorem Plain.stops (h : w.Plain) (hstops : w.stopsReading l = true) (hstep : w.step l = some w') : w'.Stopped := by
  refine ⟨h.step hstep, ?_⟩
  cases step_moves hstep with
  | @task write task rest hphase htasks hfits =>
    obtain rfl : task = .stopRead := by simpa [stopsReading, htasks] using hstops
    exact Conn.stopReadInLoop_isReading w.toConn
  | @call api write hphase hfits =>
    cases api with
    | stopRead => exact Conn.stopReadInLoop_isReading w.toConn
    | _ => simp [stopsReading] at hstops
  | _ => simp [stopsReading] at hstops

/-- Since the connection has been told to stop reading, a poll has begun. -/
structure Deaf (w : World) : Prop extends Stopped w where
  fresh : ∀ stage, w.phase = .handling (some stage) →
    Mask.has w.channel_.revents_ EPOLLIN = false ∧ Mask.has w.channel_.revents_ EPOLLRDHUP = false

theorem Stopped.unreported (h : w.Stopped) {revents : Events} (hreport : Reportable w.entry revents) :
    Mask.has revents EPOLLIN = false ∧ Mask.has revents EPOLLRDHUP = false := by
  constructor
  · by_contra hin
    have hreading := h.inv.mirrored.reported (f := EPOLLIN) hreport (by decide) (by simpa using hin)
    simp [h.reading] at hreading
  · by_contra hrdhup
    have hasked := h.inv.mirrored.reported (f := EPOLLRDHUP) hreport (by decide) (by simpa using hrdhup)
    simp [h.rdhup] at hasked

theorem Deaf.step (h : w.Deaf) (hstarts : w.startsReading l = false) (hstep : w.step l = some w') : w'.Deaf := by
  refine ⟨h.toStopped.step hstarts hstep, fun stage hstage => ?_⟩
  obtain ⟨revents_, hreport, hchannel⟩ | ⟨hrevents, hphase⟩ := step_dispatches hstep
  · rw [hchannel]
    exact h.unreported hreport
  · obtain ⟨stage', hstage'⟩ := hphase stage hstage
    rw [hrevents]
    exact h.fresh stage' hstage'

theorem Deaf.considered (h : w.Deaf) {revents : Events} (hmem : revents ∈ w.considers l) :
    Mask.has revents EPOLLIN = false ∧ Mask.has revents EPOLLRDHUP = false := by
  cases l with
  | dispatch read write =>
    simp only [considers] at hmem
    split at hmem
    · obtain rfl := List.mem_singleton.mp hmem
      exact h.fresh .onRead ‹_›
    · simp at hmem
  | _ => simp [considers] at hmem

/-- Of the bits that lead to the read callback only `EPOLLPRI` is left. -/
theorem exec_considers {labels : List Label} (h : w.Deaf)
    (hstarts : Run.Along step (fun w l => w.startsReading l = false) w labels)
    (hrun : Run.exec step w labels = some w') {revents : Events} (hmem : revents ∈ Run.trace step considers w labels) :
    Mask.has revents (EPOLLIN ||| EPOLLPRI ||| EPOLLRDHUP) = Mask.has revents EPOLLPRI := by
  have hinv : w'.Deaf ∧ ∀ revents ∈ [] ++ Run.trace step considers w labels,
      Mask.has revents EPOLLIN = false ∧ Mask.has revents EPOLLRDHUP = false := by
    refine Run.exec_invariant_trace_along
      (I := fun emitted w => w.Deaf ∧
        ∀ revents ∈ emitted, Mask.has revents EPOLLIN = false ∧ Mask.has revents EPOLLRDHUP = false)
      ?_ ⟨h, List.forall_mem_nil _⟩ hstarts hrun
    intro emitted v l v' hv hstarts hstep
    refine ⟨hv.1.step hstarts hstep, fun revents hmem => ?_⟩
    obtain hmem | hmem := List.mem_append.mp hmem
    · exact hv.2 revents hmem
    · exact hv.1.considered hmem
  obtain ⟨hin, hrdhup⟩ := hinv.2 revents hmem
  rw [Mask.has_or_right, Mask.has_or_right, hin, hrdhup, Bool.false_or, Bool.or_false]

section Runs

variable {others wakeups : Nat} {past rest since : List Label} {w₁ w₂ : World}

/-- The beginning of a poll after `stopRead()`. -/
theorem exec_deaf (hpast : Run.exec step (established others wakeups) past = some w) (hstop : w.stopsReading l = true)
    (hstep : w.step l = some w₁) (hrest : Run.exec step w₁ rest = some w₂) (hphase : w₂.phase = .polling)
    (hstarts : Run.Along step (fun w l => w.startsReading l = false) w₁ rest) : w₂.Deaf := by
  have hplain : w.Plain :=
    Run.exec_preserves (fun _ _ _ h hstep => h.step hstep) (established_plain others wakeups) hpast
  have hstopped : w₂.Stopped :=
    Run.exec_invariant (fun _ _ _ h hstarts hstep => h.step hstarts hstep) (hplain.stops hstop hstep) hstarts hrest
  refine ⟨hstopped, fun stage hstage => ?_⟩
  rw [hphase] at hstage
  cases hstage

/-- The polls that begin after `stopRead()` has been executed in the loop, and before `startRead()` is, lead to no
read, no call of the message callback and no growth of the input buffer exactly if none of the masks that come to the
read callback has `EPOLLPRI`. -/
theorem stopRead_stops_iff (hpast : Run.exec step (established others wakeups) past = some w)
    (hstop : w.stopsReading l = true) (hstep : w.step l = some w₁) (hrest : Run.exec step w₁ rest = some w₂)
    (hphase : w₂.phase = .polling) (hsince : Run.exec step w₂ since = some w')
    (hstarts : Run.Along step (fun w l => w.startsReading l = false) w₁ (rest ++ since)) :
    (Run.trace step reads w₂ since = [] ∧ w'.messages = w₂.messages ∧ Run.Along step InputKept w₂ since) ↔
      ∀ revents ∈ Run.trace step considers w₂ since, Mask.has revents EPOLLPRI = false := by
  obtain ⟨hstarts, hstarts'⟩ := hstarts.append hrest
  have hdeaf := exec_deaf hpast hstop hstep hrest hphase hstarts
  have hreads : Run.trace step reads w₂ since = [] ↔
      ∀ revents ∈ Run.trace step considers w₂ since, Mask.has revents EPOLLPRI = false := by
    have htrace := Run.trace_hom
      (h := List.filter fun revents : Events => Mask.has revents (EPOLLIN ||| EPOLLPRI ||| EPOLLRDHUP)) rfl
      List.filter_append step considers w₂ since
    change _ = Run.trace step reads w₂ since at htrace
    rw [← htrace, List.filter_eq_nil_iff]
    refine forall₂_congr fun revents hmem => ?_
    rw [exec_considers hdeaf hstarts' hsince hmem, Bool.not_eq_true]
  rw [← hreads]
  refine ⟨And.left, fun hnone => ?_⟩
  have hquiet := (Run.Along.of_trace_nil hnone).and hstarts'
  refine ⟨hnone, ?_, ?_⟩
  · refine Run.exec_invariant (I := fun v => v.messages = w₂.messages) ?_ rfl hquiet hsince
    intro v l v' hv hl hstep
    obtain hunread | ⟨hmessages, -⟩ := step_unread hl.1 hl.2 hstep
    · exact hunread.messages.trans hv
    · exact hmessages.trans hv
  · refine hquiet.mono fun v l hl v' hstep => ?_
    exact (step_unread hl.1 hl.2 hstep).imp (·.inputBuffer_) (·.2)

end Runs

/-- A poll that reports the connection, and its dispatch. -/
def round (revents : Events) (read : Buffer.ReadvResult) (write : WriteResult) : List Label :=
  .poll (some revents) :: List.replicate 4 (.dispatch read write)

/-- The backlog is written, and what has arrived is left where it is. -/
theorem stopRead_stops_writing : ∃ w w₁ w₂ w' : World,
    Run.exec step (established 0 0) [.call (.send (.chars [1, 2, 3])) (.accepted 1)] = some w ∧
    w.step (.call .stopRead (.accepted 0)) = some w₁ ∧
    Run.exec step w₁ [.swap, .endTasks] = some w₂ ∧
    Run.exec step w₂ (round EPOLLOUT (.filled [65]) (.accepted 2)) = some w' ∧ w'.accepted = [1, 2, 3] ∧
    Run.trace step reads w₂ (round EPOLLOUT (.filled [65]) (.accepted 2)) = [] ∧ w'.messages = w₂.messages ∧
    Run.Along step InputKept w₂ (round EPOLLOUT (.filled [65]) (.accepted 2)) := by
  obtain ⟨w, hpast, hstop⟩ := Run.Reaches.exists
    (show Run.Reaches step (established 0 0) [.call (.send (.chars [1, 2, 3])) (.accepted 1)]
      (fun w => Run.Reaches step w [.call .stopRead (.accepted 0)] fun w₁ =>
        Run.Along step (fun w l => w.startsReading l = false) w₁
          ([.swap, .endTasks] ++ round EPOLLOUT (.filled [65]) (.accepted 2)) ∧
        Run.Reaches step w₁ [.swap, .endTasks] fun w₂ => w₂.phase = .polling ∧
          Run.trace step considers w₂ (round EPOLLOUT (.filled [65]) (.accepted 2)) = [EPOLLOUT] ∧
          Run.Reaches step w₂ (round EPOLLOUT (.filled [65]) (.accepted 2)) fun w' => w'.accepted = [1, 2, 3]) by
        decide +kernel)
  obtain ⟨w₁, hstop, hstarts, hrest⟩ := hstop.exists
  obtain ⟨w₂, hrest, hphase, hmasks, hsince⟩ := hrest.exists
  obtain ⟨w', hsince, haccepted⟩ := hsince.exists
  obtain ⟨v, hstep, hlast⟩ := Run.exec_cons_eq_some.mp hstop
  cases hlast
  refine ⟨w, w₁, w₂, w', hpast, hstep, hrest, hsince, haccepted,
    (stopRead_stops_iff hpast rfl hstep hrest hphase hsince hstarts).mpr ?_⟩
  intro revents hmem
  rw [hmasks, List.mem_singleton] at hmem
  rw [hmem]
  decide

/-- Urgent data is reported after `stopRead()`, and the connection reads. -/
theorem stopRead_reads_urgent : ∃ w₁ w₂ w' : World,
    (established 0 0).step (.call .stopRead (.accepted 0)) = some w₁ ∧
    Run.exec step w₁ [.swap, .endTasks] = some w₂ ∧ w₂.phase = .polling ∧
    Run.exec step w₂ (round EPOLLPRI (.filled [65]) (.accepted 0)) = some w' ∧
    Run.Along step (fun w l => w.startsReading l = false) w₁
      ([.swap, .endTasks] ++ round EPOLLPRI (.filled [65]) (.accepted 0)) ∧
    Run.trace step reads w₂ (round EPOLLPRI (.filled [65]) (.accepted 0)) = [EPOLLPRI] ∧ w'.closes = 0 ∧
    w₂.messages = 0 ∧ w'.messages = 1 ∧ w₂.inputBuffer_.readable = [] ∧ w'.inputBuffer_.readable = [65] := by
  obtain ⟨w₁, hstop, hstarts, hrest⟩ := Run.Reaches.exists
    (show Run.Reaches step (established 0 0) [.call .stopRead (.accepted 0)]
      (fun w₁ => Run.Along step (fun w l => w.startsReading l = false) w₁
          ([.swap, .endTasks] ++ round EPOLLPRI (.filled [65]) (.accepted 0)) ∧
        Run.Reaches step w₁ [.swap, .endTasks] fun w₂ => w₂.phase = .polling ∧
          Run.trace step reads w₂ (round EPOLLPRI (.filled [65]) (.accepted 0)) = [EPOLLPRI] ∧ w₂.messages = 0 ∧
          w₂.inputBuffer_.readable = [] ∧
          Run.Reaches step w₂ (round EPOLLPRI (.filled [65]) (.accepted 0))
            fun w' => w'.closes = 0 ∧ w'.messages = 1 ∧ w'.inputBuffer_.readable = [65]) by decide +kernel)
  obtain ⟨w₂, hrest, hphase, hreads, hmessages, hempty, hsince⟩ := hrest.exists
  obtain ⟨w', hsince, hcloses, hmessages', hfilled⟩ := hsince.exists
  obtain ⟨v, hstep, hlast⟩ := Run.exec_cons_eq_some.mp hstop
  cases hlast
  exact ⟨w₁, w₂, w', hstep, hrest, hphase, hsince, hstarts, hreads, hcloses, hmessages, hmessages', hempty, hfilled⟩

end World

end mudong.ev
