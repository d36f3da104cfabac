import Mudong.TcpServerSingle.World

namespace mudong.ev

namespace ServerWorld

/-- What `act` does: the connection is closed, and leaves the set, if `handleClose` was run. -/
inductive Acts (s : ServerWorld) (ptr : Nat) (conn : SharedConn) (c : Conn) : ServerWorld → Prop where
  | stays (hcloses : c.closes = 0) : Acts s ptr conn c (s.update ptr conn c)
  | leaves (hcloses : c.closes ≠ 0) (hmem : ptr ∈ s.connections_) :
      Acts s ptr conn c { s.update ptr conn c with connections_ := s.connections_.erase ptr }

theorem act_acts {s s' : ServerWorld} {ptr : Nat} {conn : SharedConn} {c : Conn} (h : s.act ptr conn c = some s') :
    s.Acts ptr conn c s' := by
  unfold act at h
  split at h
  · rename_i hcloses
    cases h
    exact .stays hcloses
  · rename_i hcloses
    simp only [closeConnection, Option.ite_none_right_eq_some, Option.some.injEq] at h
    obtain ⟨hmem, rfl⟩ := h
    exact .leaves hcloses hmem

/-- The task at the head of `tasks` has been taken. -/
def taken (s : ServerWorld) (t : Nat × Task) (rest : List (Nat × Task)) : ServerWorld :=
  { s with tasks := rest, executed := s.executed ++ [t] }

/-- Everything a step can be, before the connections that it leaves without references are destroyed. -/
inductive Moves (s : ServerWorld) : ServerStep → ServerWorld → Prop where
  | poll {ready : List (Int × Events)} {batch : List (Nat × Events)} (hphase : s.phase = .polling)
      (hnodup : (ready.map Prod.fst).Nodup) (hbatch : ready.mapM s.report = some batch) :
      Moves s (.poll ready)
        { s with conns := batch.foldl setRevents s.conns, batch := batch.map Prod.fst, phase := .handling none }
  | accept {result : AcceptResult} (hphase : s.phase = .handling none) (hfresh : s.fresh result = true) :
      Moves s (.accept result) (newConnection result.sockfd s)
  | take {ptr : Nat} {rest : List Nat} {conn : SharedConn} (hphase : s.phase = .handling none)
      (hbatch : s.batch = ptr :: rest) (hconn : s.conns.object ptr = some conn) :
      Moves s .take { s with batch := rest, phase := .handling (some (ptr, .onClose)) }
  | dangles {ptr : Nat} {rest : List Nat} (hphase : s.phase = .handling none) (hbatch : s.batch = ptr :: rest)
      (hconn : s.conns.object ptr = none) :
      Moves s .take { s with batch := rest, dangling := s.dangling ++ [ptr] }
  | dispatch {read : Buffer.ReadvResult} {write : WriteResult} {ptr : Nat} {stage : Stage} {conn : SharedConn}
      {acted : ServerWorld} (hphase : s.phase = .handling (some (ptr, stage))) (hconn : s.conns.object ptr = some conn)
      (hacts : s.Acts ptr conn ((s.view conn).runStage read write stage) acted) :
      Moves s (.dispatch read write) { acted with phase := .handling (stage.next.map fun stage => (ptr, stage)) }
  | swap (hphase : s.phase = .handling none) (hbatch : s.batch = []) :
      Moves s .swap
        { s with phase := .running, tasks := s.pendingTasks_, pendingTasks_ := [], doingPendingTasks_ := true }
  | task {write : WriteResult} {ptr : Nat} {task : Task} {rest : List (Nat × Task)} {conn : SharedConn}
      {acted : ServerWorld} (hphase : s.phase = .running) (htasks : s.tasks = (ptr, task) :: rest)
      (hconn : s.conns.object ptr = some conn)
      (hacts : (s.taken (ptr, task) rest).Acts ptr conn (((s.taken (ptr, task) rest).view conn).runTask write task)
        acted) :
      Moves s (.task write) acted
  | misuses {write : WriteResult} {ptr : Nat} {task : Task} {rest : List (Nat × Task)} (hphase : s.phase = .running)
      (htasks : s.tasks = (ptr, task) :: rest) (hconn : s.conns.object ptr = none) :
      Moves s (.task write) { s.taken (ptr, task) rest with misuses := s.misuses ++ [(ptr, task)] }
  | endTasks (hphase : s.phase = .running) (htasks : s.tasks = []) :
      Moves s .endTasks { s with phase := .polling, executed := [], doingPendingTasks_ := false }
  | call {ptr : Nat} {api : Api} {write : WriteResult} {conn : SharedConn} {acted : ServerWorld}
      (huser : s.phase.inUserCode = true) (hconn : s.conns.object ptr = some conn)
      (hacts : s.Acts ptr conn ((s.view conn).callInLoop write api) acted) : Moves s (.call ptr api write) acted
  | configure {ptr mark : Nat} {inputBuffer_ : ValidBuffer} {writeComplete highWaterMark : Bool}
      {conn conn' : SharedConn} (hconn : s.conns.object ptr = some conn)
      (hsame : (conn'.state_, conn'.sockfd_, conn'.channel_) = (conn.state_, conn.sockfd_, conn.channel_)) :
      Moves s (.configure ptr inputBuffer_ writeComplete highWaterMark mark) { s with conns := s.conns.set ptr conn' }
  | quit : Moves s .quit { s with quit_ := true }
  | exit (hphase : s.phase = .polling) : Moves s .exit { s with phase := .exited }
  | destroyServer (hphase : s.phase = .exited) :
      Moves s .destroyServer { s with phase := .serverDestroyed, connections_ := [] }
  | destroyLoop (hphase : s.phase = .serverDestroyed) :
      Moves s .destroyLoop { s with phase := .loopDestroyed, pendingTasks_ := [] }
  | hold {thread ptr : Nat} {conn : SharedConn} (hconn : s.conns.object ptr = some conn) :
      Moves s (.hold thread ptr) { s with held := s.held ++ [(thread, ptr)] }
  | drop {thread ptr : Nat} (hheld : (thread, ptr) ∈ s.held) (hidle : (s.calls thread).2 = .idle) :
      Moves s (.drop thread ptr) { s with held := s.held.erase (thread, ptr) }
  | giveUp {thread ptr : Nat} {api : Api} : Moves s (.start thread ptr api) s
  | start {thread ptr : Nat} {api : Api} (call : Call) (failures : List Assertion) (hheld : (thread, ptr) ∈ s.held)
      (hidle : (s.calls thread).2 = .idle) :
      Moves s (.start thread ptr api) (setCall { s with failures } thread ptr call)
  | exchange {thread ptr : Nat} {conn : SharedConn} {call call' : Call} (hcall : s.calls thread = (ptr, call))
      (hbusy : call ≠ .idle) (hconn : s.conns.object ptr = some conn) :
      Moves s (.advance thread) (s.exchange thread ptr conn call')
  | push {thread ptr : Nat} {task : Task} (hcall : s.calls thread = (ptr, .push task)) :
      Moves s (.advance thread) (setCall { s with toEventLoop := s.push (ptr, task) } thread ptr (.wakeup task))
  | wakeup {thread ptr : Nat} {task : Task} (hcall : s.calls thread = (ptr, .wakeup task)) :
      Moves s (.advance thread) (setCall { s with toEventLoop := s.wakeup } thread ptr .idle)

private theorem advanceCall_moves {s s' : ServerWorld} {thread : Nat} (h : s.advanceCall thread = some s') :
    s.Moves (.advance thread) s' := by
  unfold advanceCall at h
  split at h
  · cases h
  · rename_i ptr hcall
    simp only [Option.map_eq_some_iff] at h
    obtain ⟨conn, hconn, rfl⟩ := h
    exact .exchange hcall (by simp) hconn
  · rename_i ptr hcall
    simp only [Option.map_eq_some_iff] at h
    obtain ⟨conn, hconn, rfl⟩ := h
    exact .exchange hcall (by simp) hconn
  · rename_i ptr task hcall
    cases h
    exact .push hcall
  · rename_i ptr task hcall
    cases h
    exact .wakeup hcall

private theorem startCall_moves {s : ServerWorld} {thread ptr : Nat} (conn : SharedConn)
    (hheld : (thread, ptr) ∈ s.held) (hidle : (s.calls thread).2 = .idle) (api : Api) :
    s.Moves (.start thread ptr api) (s.startCall thread ptr conn api) := by
  cases api with
  | send payload =>
    simp only [startCall]
    split
    · exact .giveUp
    · exact .start _ s.failures hheld hidle
  | shutdown => exact .start _ _ hheld hidle
  | forceClose =>
    simp only [startCall]
    split
    · exact .start _ s.failures hheld hidle
    · exact .giveUp
  | stopRead => exact .start _ s.failures hheld hidle
  | startRead => exact .start _ s.failures hheld hidle

theorem advance_moves {s s' : ServerWorld} {l : ServerStep} (h : s.advance l = some s') : s.Moves l s' := by
  cases l with
  | poll ready =>
    simp only [advance, Option.ite_none_right_eq_some, Option.map_eq_some_iff] at h
    obtain ⟨⟨hphase, _, hnodup⟩, batch, hbatch, rfl⟩ := h
    exact .poll hphase hnodup hbatch
  | accept result =>
    simp only [advance, Acceptor.handleRead, Option.ite_none_right_eq_some] at h
    obtain ⟨⟨hphase, hfresh⟩, h⟩ := h
    split at h
    · cases h
    · cases h
      exact .accept hphase hfresh
  | take =>
    simp only [advance] at h
    split at h
    · rename_i ptr rest hphase hbatch
      split at h
      · rename_i hconn
        cases h
        obtain ⟨conn, hconn⟩ := Option.isSome_iff_exists.mp hconn
        exact .take hphase hbatch hconn
      · rename_i hconn
        cases h
        exact .dangles hphase hbatch (Option.not_isSome_iff_eq_none.mp hconn)
    · cases h
  | dispatch read write =>
    simp only [advance] at h
    split at h
    · rename_i ptr stage hphase
      simp only [Option.bind_eq_some_iff, Option.ite_none_right_eq_some, Option.map_eq_some_iff] at h
      obtain ⟨conn, hconn, _, acted, hact, rfl⟩ := h
      exact .dispatch hphase hconn (act_acts hact)
    · cases h
  | swap =>
    simp only [advance, Option.ite_none_right_eq_some, Option.some.injEq] at h
    obtain ⟨⟨hphase, hbatch⟩, rfl⟩ := h
    exact .swap hphase hbatch
  | task write =>
    simp only [advance] at h
    split at h
    · rename_i ptr task rest hphase htasks
      split at h
      · rename_i conn hconn
        simp only [Option.ite_none_right_eq_some] at h
        exact .task hphase htasks hconn (act_acts h.2)
      · rename_i hconn
        cases h
        exact .misuses hphase htasks hconn
    · cases h
  | endTasks =>
    simp only [advance, Option.ite_none_right_eq_some, Option.some.injEq] at h
    obtain ⟨⟨hphase, htasks⟩, rfl⟩ := h
    exact .endTasks hphase htasks
  | call ptr api write =>
    simp only [advance, Option.bind_eq_some_iff, Option.ite_none_right_eq_some] at h
    obtain ⟨conn, hconn, ⟨huser, _⟩, hact⟩ := h
    exact .call huser hconn (act_acts hact)
  | configure ptr inputBuffer_ writeComplete highWaterMark mark =>
    simp only [advance, Option.bind_eq_some_iff, Option.ite_none_right_eq_some, Option.some.injEq] at h
    obtain ⟨conn, hconn, _, rfl⟩ := h
    exact .configure hconn rfl
  | quit =>
    cases h
    exact .quit
  | exit =>
    simp only [advance, Option.ite_none_right_eq_some, Option.some.injEq] at h
    obtain ⟨⟨hphase, _⟩, rfl⟩ := h
    exact .exit hphase
  | destroyServer =>
    simp only [advance, Option.ite_none_right_eq_some, Option.some.injEq] at h
    obtain ⟨hphase, rfl⟩ := h
    exact .destroyServer hphase
  | destroyLoop =>
    simp only [advance, Option.ite_none_right_eq_some, Option.some.injEq] at h
    obtain ⟨hphase, rfl⟩ := h
    exact .destroyLoop hphase
  | hold thread ptr =>
    simp only [advance, Option.ite_none_right_eq_some, Option.some.injEq] at h
    obtain ⟨hconn, rfl⟩ := h
    obtain ⟨conn, hconn⟩ := Option.isSome_iff_exists.mp hconn
    exact .hold hconn
  | drop thread ptr =>
    simp only [advance, Option.ite_none_right_eq_some, Option.some.injEq] at h
    obtain ⟨⟨hheld, hidle⟩, rfl⟩ := h
    exact .drop hheld hidle
  | start thread ptr api =>
    simp only [advance, Option.bind_eq_some_iff, Option.ite_none_right_eq_some, Option.some.injEq] at h
    obtain ⟨conn, _, ⟨hheld, hidle, _⟩, rfl⟩ := h
    exact startCall_moves conn hheld hidle api
  | advance thread =>
    simp only [ServerWorld.advance, Option.ite_none_right_eq_some] at h
    exact advanceCall_moves h.2

end ServerWorld

end mudong.ev
