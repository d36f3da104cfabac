import Mudong.AddOneServer
import Mudong.TcpConnection.Open

namespace mudong.ev

/-- The text of a calculation is not the beginning of a number. -/
theorem stoll_of_head {text : List UInt8} (hhead : text.head? = some 99) (data : List UInt8) :
    stoll (text ++ data) = .error .invalid_argument := by
  obtain ⟨rest, rfl⟩ : ∃ rest, text = 99 :: rest := List.head?_eq_some_iff.mp hhead
  have hnone : Decimal.toInt ('c' :: charsOf (rest ++ data)) = none := by
    simp [Decimal.toInt, Decimal.isspace, Decimal.sign]
  have htext : charsOf (99 :: rest ++ data) = 'c' :: charsOf (rest ++ data) := by
    simp [charsOf]
  rw [stoll, htext, hnone]

/-- What the pool makes of a string. -/
def sum (text : List UInt8) : Except AddOneFailure Int64 :=
  match stoll text with
  | .error failure => .error failure
  | .ok oldNum => .ok (addOne oldNum)

namespace AddOneServer

/-- What the last call of `onMessage` has left in the buffer: nothing, unless the connection was no longer connected and
its second send did nothing. -/
def Leftover (answers : List Bool) (text : List UInt8) : Prop :=
  answers.getLast? = some false ∧ text.head? = some 99 ∨ answers.getLast? ≠ some false ∧ text = []

/-- What the input buffer holds at each place of `onMessage`, and how many messages have been calculated and
answered. -/
def Buffered (a : AddOneServer) : Prop :=
  match a.onMessage with
  | none => Leftover a.answers a.inputBuffer_.readable ∧ a.calculated.length = a.answers.length
  | some (.greeting data) | some (.calculating data) =>
    (∃ text, Leftover a.answers text ∧ a.inputBuffer_.readable = text ++ data) ∧
      a.calculated.length = a.answers.length
  | some (.replying _) =>
    a.inputBuffer_.readable.head? = some 99 ∧ a.calculated.length = a.answers.length + 1

/-- Every string was the text of a number, every message but the last was answered, and the connection has closed at
most once. -/
structure Answered (a : AddOneServer) : Prop where
  once : a.closes ≤ 1
  numbers : ∀ data ∈ a.calculated, ∃ n, sum data = .ok n
  answers : ∀ ok ∈ a.answers.take (a.calculated.length - 1), ok = true

structure Inv (a : AddOneServer) : Prop where
  buffered : a.failure = none → a.Buffered
  answered : a.failure = none ↔ a.Answered
  results : a.failure = none → a.calculated.map sum = a.results.map Except.ok

theorem init_inv (tid others wakeups : Nat) : (init tid others wakeups).Inv := by
  have hempty : (init tid others wakeups).inputBuffer_.readable = [] := ValidBuffer.readable_init _
  refine ⟨fun _ => ⟨.inr ⟨by simp [init], hempty⟩, rfl⟩, ⟨fun _ => ⟨Nat.zero_le 1, ?_, ?_⟩, fun _ => rfl⟩,
    fun _ => rfl⟩
  · intro data hdata
    cases hdata
  · intro ok hok
    cases hok

/-- A step of the connection that changes nothing that the invariant speaks of. -/
theorem Inv.keep {a a' : AddOneServer} (hinv : a.Inv) (halive : a.failure = none) (hbuffered : a.Buffered → a'.Buffered)
    (honce : a'.closes ≤ 1)
    (hsame : (a'.failure, a'.calculated, a'.results, a'.answers) = (a.failure, a.calculated, a.results, a.answers)) :
    a'.Inv := by
  simp only [Prod.mk.injEq] at hsame
  obtain ⟨hfailure, hcalculated, hresults, hanswers⟩ := hsame
  obtain ⟨_, hnumbers, hall⟩ := hinv.answered.mp halive
  refine ⟨fun _ => hbuffered (hinv.buffered halive), ⟨fun _ => ⟨honce, ?_, ?_⟩, fun _ => hfailure.trans halive⟩, ?_⟩
  · rw [hcalculated]
    exact hnumbers
  · rw [hcalculated, hanswers]
    exact hall
  · rw [hfailure, hcalculated, hresults]
    exact hinv.results

theorem Buffered.conn {a : AddOneServer} {w : World} (h : a.Buffered)
    (hreadable : w.inputBuffer_.readable = a.inputBuffer_.readable) : Buffered { a with toWorld := w } := by
  unfold Buffered at h ⊢
  dsimp only
  rw [hreadable]
  exact h

/-- A string that is no number in range ends the process. -/
theorem calculate_failure {a : AddOneServer} (data : List UInt8) (ttid : Nat) {failure : AddOneFailure}
    (hsum : sum a.inputBuffer_.readable = .error failure) :
    ((a.calculate data ttid).failure, (a.calculate data ttid).calculated, (a.calculate data ttid).answers) =
      (some failure, a.calculated ++ [data], a.answers) := by
  cases hstoll : stoll a.inputBuffer_.readable with
  | error failure' =>
    simp only [sum, hstoll] at hsum
    cases hsum
    simp only [calculate, hstoll]
  | ok oldNum =>
    simp only [sum, hstoll] at hsum
    cases hsum

theorem calculate_result {a : AddOneServer} (data : List UInt8) (ttid : Nat) {result : Int64}
    (hsum : sum a.inputBuffer_.readable = .ok result) :
    a.calculate data ttid =
      { a with
        inputBuffer_ := a.inputBuffer_.retrieveAll.append (calculationText ttid)
        onMessage := some (.replying result)
        calculated := a.calculated ++ [data]
        results := a.results ++ [result] } := by
  cases hstoll : stoll a.inputBuffer_.readable with
  | error failure =>
    simp only [sum, hstoll] at hsum
    cases hsum
  | ok oldNum =>
    simp only [sum, hstoll] at hsum
    cases hsum
    simp only [calculate, hstoll]

theorem head_calculationText (ttid : Nat) : (calculationText ttid).head? = some 99 := rfl

/-- All were answered if all but the last were, and the last one too. -/
private theorem all_answered {answers : List Bool} (hall : ∀ ok ∈ answers.take (answers.length - 1), ok = true)
    (hlast : answers.getLast? ≠ some false) : ∀ ok ∈ answers, ok = true := by
  intro ok hok
  cases hlist : answers.getLast? with
  | none =>
    rw [List.getLast?_eq_none_iff] at hlist
    rw [hlist] at hok
    cases hok
  | some last =>
    obtain ⟨init, rfl⟩ := List.getLast?_eq_some_iff.mp hlist
    simp only [List.length_append, List.length_singleton, Nat.add_sub_cancel, List.take_left] at hall
    rw [List.mem_append, List.mem_singleton] at hok
    obtain hok | rfl := hok
    · exact hall ok hok
    · rw [hlist] at hlast
      simpa using hlast

theorem Inv.calculate {a : AddOneServer} {data : List UInt8} (hinv : a.Inv) (halive : a.failure = none)
    (hphase : a.onMessage = some (.calculating data)) (ttid : Nat) : (a.calculate data ttid).Inv := by
  have hbuffered := hinv.buffered halive
  simp only [Buffered, hphase] at hbuffered
  obtain ⟨⟨text, htext, hreadable⟩, hcount⟩ := hbuffered
  have hlength : (a.calculated ++ [data]).length - 1 = a.answers.length := by simp [hcount]
  have hfails {failure : AddOneFailure} (hsum : sum a.inputBuffer_.readable = .error failure)
      (hnot : (∀ ok ∈ a.answers, ok = true) → sum data = .error failure) : (a.calculate data ttid).Inv := by
    have hfields := calculate_failure data ttid hsum
    simp only [Prod.mk.injEq] at hfields
    obtain ⟨hfailure, hcalculated, hanswers⟩ := hfields
    refine ⟨fun h => ?_, ⟨fun h => ?_, fun h => ?_⟩, fun h => ?_⟩
    · simp [hfailure] at h
    · simp [hfailure] at h
    · have hall := h.answers
      rw [hanswers, hcalculated, hlength, List.take_length] at hall
      obtain ⟨n, hn⟩ := h.numbers data (by simp [hcalculated])
      rw [hnot hall] at hn
      cases hn
    · simp [hfailure] at h
  obtain ⟨hlast, htext⟩ | ⟨hlast, htext⟩ := htext
  · have hsum : sum a.inputBuffer_.readable = .error .invalid_argument := by
      rw [hreadable, sum, stoll_of_head htext]
    refine hfails hsum fun hall => ?_
    have hfalse := hall false (List.mem_of_getLast? hlast)
    cases hfalse
  · rw [htext, List.nil_append] at hreadable
    cases hsum : sum data with
    | error failure => exact hfails (by rw [hreadable, hsum]) fun _ => hsum
    | ok result =>
      obtain ⟨honce, hnumbers, hall⟩ := hinv.answered.mp halive
      rw [hcount] at hall
      rw [← hreadable] at hsum
      rw [calculate_result data ttid hsum]
      rw [hreadable] at hsum
      refine ⟨fun _ => ⟨?_, ?_⟩, ⟨fun _ => ⟨honce, ?_, ?_⟩, fun _ => halive⟩, fun _ => ?_⟩
      · have hempty : a.inputBuffer_.retrieveAll.readable = [] := Buffer.readable_retrieveAll _
        dsimp only
        rw [ValidBuffer.readable_append, hempty, List.nil_append, head_calculationText]
      · simp [hcount]
      · intro other hother
        rw [List.mem_append, List.mem_singleton] at hother
        obtain hother | rfl := hother
        · exact hnumbers other hother
        · exact ⟨result, hsum⟩
      · intro ok hok
        rw [hlength, List.take_length] at hok
        exact all_answered hall hlast ok hok
      · rw [List.map_append, List.map_append, hinv.results halive, List.map_singleton, List.map_singleton, hsum]

/-- A `send` does not close the connection. -/
theorem reply_closes (a : AddOneServer) (result : Int64) (write : WriteResult) :
    (a.reply result write).closes = a.closes :=
  (Conn.callInLoop_calm a.toConn write (.send (.buffer (a.inputBuffer_.append (resultText result))))).closes

theorem Inv.reply {a : AddOneServer} {result : Int64} (hinv : a.Inv) (halive : a.failure = none)
    (hphase : a.onMessage = some (.replying result)) (write : WriteResult) : (a.reply result write).Inv := by
  have hbuffered := hinv.buffered halive
  simp only [Buffered, hphase] at hbuffered
  obtain ⟨hhead, hcount⟩ := hbuffered
  obtain ⟨honce, hnumbers, hall⟩ := hinv.answered.mp halive
  rw [hcount, Nat.add_sub_cancel, List.take_length] at hall
  refine ⟨fun _ => ⟨?_, ?_⟩, ⟨fun _ => ⟨?_, hnumbers, ?_⟩, fun _ => halive⟩, fun _ => hinv.results halive⟩
  · by_cases hstate : a.state_ = .kConnected
    · refine .inr ⟨by simp [AddOneServer.reply, hstate], ?_⟩
      simp only [AddOneServer.reply, Conn.sendBuffer, hstate, ne_eq, not_true_eq_false, if_false]
      exact Buffer.readable_retrieveAll _
    · refine .inl ⟨by simp [AddOneServer.reply, hstate], ?_⟩
      simp only [AddOneServer.reply, Conn.sendBuffer, hstate, ne_eq, not_false_eq_true, if_true]
      rw [ValidBuffer.readable_append, List.head?_append, hhead]
      rfl
  · simp [AddOneServer.reply, hcount]
  · rw [reply_closes]
    exact honce
  · intro ok hok
    simp only [AddOneServer.reply, hcount, Nat.add_sub_cancel, List.take_left] at hok
    exact hall ok hok

/-- A step of the connection and what the server makes of it. -/
theorem Inv.conn {a : AddOneServer} {l : Label} {w : World} (hinv : a.Inv) (halive : a.failure = none)
    (hleaves : l.leavesInput = true) (hwhen : a.onMessage = none ∨ l.elsewhere = true) (hw : a.toWorld.step l = some w) :
    (a.conn l w).Inv := by
  unfold AddOneServer.conn
  split
  · rename_i htwice
    refine ⟨fun h => ?_, ⟨fun h => ?_, fun h => (htwice.not_ge h.once).elim⟩, fun h => ?_⟩
    all_goals cases h
  · rename_i honce
    obtain ⟨hquiet, hreadable⟩ | ⟨hmore, read, write, rfl, hreadable⟩ := World.step_input hleaves hw
    · rw [if_neg (by omega)]
      exact hinv.keep halive (fun h => h.conn hreadable) (not_lt.mp honce) rfl
    · have hphase : a.onMessage = none := hwhen.resolve_right (by simp [Label.elsewhere])
      rw [if_pos (by omega)]
      refine hinv.keep halive (fun h => ?_) (not_lt.mp honce) rfl
      simp only [Buffered, hphase] at h
      exact ⟨⟨_, h.1, hreadable⟩, h.2⟩

theorem Inv.step {a a' : AddOneServer} {l : AddOneLabel} (hinv : a.Inv) (hstep : a.step l = some a') : a'.Inv := by
  unfold AddOneServer.step at hstep
  rw [Option.ite_none_left_eq_some, not_not] at hstep
  obtain ⟨halive, hstep⟩ := hstep
  cases l with
  | conn l =>
    simp only [Option.ite_none_right_eq_some, Option.map_eq_some_iff] at hstep
    obtain ⟨⟨hleaves, hwhen⟩, w, hw, rfl⟩ := hstep
    exact hinv.conn halive hleaves hwhen hw
  | greet write =>
    simp only at hstep
    split at hstep
    · rename_i data hphase
      obtain ⟨w, hw, rfl⟩ := Option.map_eq_some_iff.mp hstep
      have hcloses : w.closes = a.closes := by
        cases World.step_moves hw with
        | call => exact (Conn.callInLoop_calm a.toConn _ _).closes
      obtain ⟨_, hreadable⟩ | ⟨_, _, _, hdispatch, _⟩ := World.step_input rfl hw
      · refine hinv.keep halive (fun h => ?_) (hcloses.trans_le (hinv.answered.mp halive).once) rfl
        simp only [Buffered, hphase] at h
        simp only [Buffered, hreadable]
        exact h
      · cases hdispatch
    · cases hstep
  | calculate ttid =>
    simp only at hstep
    split at hstep
    · rename_i data hphase
      cases hstep
      exact hinv.calculate halive hphase ttid
    · cases hstep
  | reply write =>
    simp only at hstep
    split at hstep
    · rename_i result hphase
      rw [Option.ite_none_right_eq_some, Option.some.injEq] at hstep
      obtain ⟨_, rfl⟩ := hstep
      exact hinv.reply halive hphase write
    · cases hstep

end AddOneServer

end mudong.ev
