import Mudong.TcpConnection.Moves
import Mudong.TcpConnection.Rules

namespace mudong.ev

/-- What `::readv` has read. -/
def Buffer.ReadvResult.data : Buffer.ReadvResult → List UInt8
  | .failed _ => []
  | .filled data => data

theorem ValidBuffer.readable_readFd (v : ValidBuffer) (read : Buffer.ReadvResult) :
    (v.readFd read).1.readable = v.readable ++ read.data := by
  cases read with
  | failed errno => exact (List.append_nil _).symm
  | filled data =>
    obtain ⟨next, hnext, _, hreadable⟩ := Buffer.readFd_spec v.valid data
    simpa [ValidBuffer.readFd, ValidBuffer.readable, hnext, Buffer.ReadvResult.data] using hreadable

namespace Conn

theorem input_rule : LoopRule fun c c' => (c'.inputBuffer_, c'.messages) = (c.inputBuffer_, c.messages) where
  refl _ := rfl
  trans h h' := h'.trans h
  record _ _ _ _ _ := rfl
  enableWrite _ := rfl
  disableWrite _ := rfl
  notice _ _ _ := rfl
  history _ _ _ _ _ _ _ _ := rfl
  disableRead _ := rfl
  disableAll _ := rfl
  forceCloses _ := rfl

theorem startReadInLoop_input (c : Conn) :
    (c.startReadInLoop.inputBuffer_, c.startReadInLoop.messages) = (c.inputBuffer_, c.messages) := by
  unfold startReadInLoop
  split <;> rfl

/-- A callback of the channel reads only if it calls back with a message, finds the end of the stream or fails. -/
theorem runStage_input (c : Conn) (read : Buffer.ReadvResult) (write : WriteResult) (stage : Stage) :
    ((c.runStage read write stage).inputBuffer_, (c.runStage read write stage).messages) =
        (c.inputBuffer_, c.messages) ∨
      (c.runStage read write stage).inputBuffer_.readable = c.inputBuffer_.readable ++ read.data ∧
        ((c.runStage read write stage).messages = c.messages + 1 ∧
            (c.runStage read write stage).closes = c.closes ∨
          (c.runStage read write stage).messages = c.messages ∧
            (c.runStage read write stage).closes = c.closes + 1 ∧ read.data = []) := by
  by_cases hread : stage = .onRead ∧ Mask.has c.channel_.revents_ (EPOLLIN ||| EPOLLPRI ||| EPOLLRDHUP) = true
  · obtain ⟨rfl, hbits⟩ := hread
    rw [runStage, if_pos hbits]
    have hreadable := ValidBuffer.readable_readFd c.inputBuffer_ read
    unfold handleRead
    dsimp only
    split
    · rename_i hfailed
      refine Or.inl ?_
      cases read with
      | failed errno => rfl
      | filled data => simp [ValidBuffer.readFd] at hfailed
    · split
      · rename_i hend
        refine Or.inr ⟨hreadable, Or.inr ⟨rfl, rfl, ?_⟩⟩
        cases read with
        | failed errno => rfl
        | filled data => simpa [ValidBuffer.readFd, Buffer.ReadvResult.data] using hend
      · exact Or.inr ⟨hreadable, Or.inl ⟨rfl, rfl⟩⟩
  · exact Or.inl (input_rule.runStage c read write fun hstage hbits => (hread ⟨hstage, hbits⟩).elim)

end Conn

/-- Everything but a change of the input buffer by the user. -/
def Label.leavesInput : Label → Bool
  | .useInput _ => false
  | _ => true

namespace World

/-- A step calls back with a message and the bytes just read at the end of the input buffer, or leaves the bytes in it
as they were. -/
theorem step_input {w w' : World} {l : Label} (hleaves : l.leavesInput = true) (hstep : w.step l = some w') :
    w'.messages = w.messages ∧ w'.inputBuffer_.readable = w.inputBuffer_.readable ∨
      w'.messages = w.messages + 1 ∧ ∃ read write, l = .dispatch read write ∧
        w'.inputBuffer_.readable = w.inputBuffer_.readable ++ read.data := by
  have hsame {c : Conn} (h : (c.inputBuffer_, c.messages) = (w.inputBuffer_, w.messages)) :
      c.messages = w.messages ∧ c.inputBuffer_.readable = w.inputBuffer_.readable := by
    obtain ⟨hinput, hmessages⟩ := Prod.mk.inj h
    exact ⟨hmessages, congrArg ValidBuffer.readable hinput⟩
  cases step_moves hstep with
  | dispatch hphase hfits =>
    rename_i read write stage
    obtain hquiet | ⟨hreads, ⟨hmore, _⟩ | ⟨hquiet, _, hnone⟩⟩ := Conn.runStage_input w.toConn read write stage
    · exact .inl (hsame hquiet)
    · exact .inr ⟨hmore, read, write, rfl, hreads⟩
    · rw [hnone, List.append_nil] at hreads
      exact .inl ⟨hquiet, hreads⟩
  | task hphase htasks hfits =>
    exact .inl (hsame (Conn.input_rule.runTask w.toConn _ fun _ => Conn.startReadInLoop_input _))
  | call hphase hfits =>
    exact .inl (hsame (Conn.input_rule.callInLoop w.toConn _ fun _ => Conn.startReadInLoop_input _))
  | useInput hphase => cases hleaves
  | _ => exact .inl ⟨rfl, rfl⟩

end World

end mudong.ev
