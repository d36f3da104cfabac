import Mudong.TcpConnection.States
import Mudong.TcpServerSingle.Moves

namespace mudong.ev

namespace ServerWorld

/-- The state and the descriptor of a connection. -/
def status (s : ServerWorld) (ptr : Nat) : Option (ConnectState × Int) :=
  (s.conns.object ptr).map fun conn => (conn.state_, conn.sockfd_)

variable {s s' : ServerWorld} {l : ServerStep}

theorem status_of_object {ptr : Nat} {conn : SharedConn} (h : s.conns.object ptr = some conn) :
    s.status ptr = some (conn.state_, conn.sockfd_) := by
  rw [status, h]
  rfl

theorem status_isSome (ptr : Nat) : (s.status ptr).isSome = (s.conns.object ptr).isSome := Option.isSome_map

theorem status_set (s : ServerWorld) {ptr : Nat} (conn : SharedConn) (hconns : s'.conns = s.conns.set ptr conn) :
    s'.status = Function.update s.status ptr (some (conn.state_, conn.sockfd_)) := by
  funext i
  by_cases hi : i = ptr
  · subst hi
    simp [status, hconns]
  · rw [Function.update_of_ne hi, status, status, hconns, Shared.set_object_of_ne _ hi]

theorem status_make (s : ServerWorld) (conn : SharedConn) (hconns : s'.conns = s.conns.make conn) :
    s'.status = Function.update s.status s.conns.made (some (conn.state_, conn.sockfd_)) := by
  funext i
  by_cases hi : i = s.conns.made
  · subst hi
    simp [status, hconns]
  · rw [Function.update_of_ne hi, status, status, hconns, Shared.make_object_of_ne _ hi]

/-- `setRevents` leaves state and descriptor alone. -/
theorem setRevents_object (conns : Shared SharedConn) (p : Nat × Events) (ptr : Nat) :
    ((setRevents conns p).object ptr).map (fun conn => (conn.state_, conn.sockfd_)) =
      (conns.object ptr).map fun conn => (conn.state_, conn.sockfd_) := by
  unfold setRevents
  split
  · rename_i conn hconn
    by_cases hi : ptr = p.1
    · subst hi
      simp [hconn]
    · rw [Shared.set_object_of_ne _ hi]
  · rfl

theorem setRevents_foldl (batch : List (Nat × Events)) (conns : Shared SharedConn) (ptr : Nat) :
    ((batch.foldl setRevents conns).object ptr).map (fun conn => (conn.state_, conn.sockfd_)) =
      (conns.object ptr).map fun conn => (conn.state_, conn.sockfd_) := by
  induction batch generalizing conns with
  | nil => rfl
  | cons p batch ih => rw [List.foldl_cons, ih, setRevents_object]

theorem setRevents_made (conns : Shared SharedConn) (p : Nat × Events) : (setRevents conns p).made = conns.made := by
  unfold setRevents
  split <;> rfl

theorem setRevents_foldl_made (batch : List (Nat × Events)) (conns : Shared SharedConn) :
    (batch.foldl setRevents conns).made = conns.made := by
  induction batch generalizing conns with
  | nil => rfl
  | cons p batch ih => rw [List.foldl_cons, ih, setRevents_made]

/-- The steps that exchange the `state_` of a connection whatever it was. -/
def Overwrites (ptr : Nat) : ServerStep → Prop
  | .call i .shutdown _ => i = ptr
  | .advance _ => True
  | _ => False

/-- Everything that a step can do to the states of the connections and to the set. -/
inductive Touches (s : ServerWorld) (l : ServerStep) (s' : ServerWorld) : Prop where
  | same (hmade : s'.conns.made = s.conns.made) (hstatus : s'.status = s.status)
      (hset : s'.connections_ = s.connections_)
  | makes (fd : Int) (hfresh : ∀ ptr state, s.status ptr = some (state, fd) → fd < 0)
      (hmade : s'.conns.made = s.conns.made + 1)
      (hstatus : s'.status = Function.update s.status s.conns.made (some (.kConnected, fd)))
      (hset : s'.connections_ = s.connections_ ++ [s.conns.made])
  | changes (ptr : Nat) (state state' : ConnectState) (fd : Int) (hold : s.status ptr = some (state, fd))
      (hstate : state' = state ∨ state' = .kDisconnecting ∧ (state ≠ .kDisconnected ∨ Overwrites ptr l))
      (hmade : s'.conns.made = s.conns.made)
      (hstatus : s'.status = Function.update s.status ptr (some (state', fd)))
      (hset : s'.connections_ = s.connections_)
  | closes (ptr : Nat) (state : ConnectState) (fd : Int) (hold : s.status ptr = some (state, fd))
      (hmem : ptr ∈ s.connections_) (hby : s.phase.guard = [ptr] ∨ s.phase = .running)
      (hmade : s'.conns.made = s.conns.made)
      (hstatus : s'.status = Function.update s.status ptr (some (.kDisconnected, fd)))
      (hset : s'.connections_ = s.connections_.erase ptr)
  | clears (hl : l = .destroyServer) (hphase : s.phase = .exited) (hmade : s'.conns.made = s.conns.made)
      (hstatus : s'.status = s.status) (hset : s'.connections_ = [])

/-- What else of the two worlds is different does not matter. -/
theorem Touches.frame {u u' : ServerWorld} (h : s.Touches l s')
    (hbefore : (u.conns, u.connections_, u.phase) = (s.conns, s.connections_, s.phase))
    (hafter : (u'.conns, u'.connections_) = (s'.conns, s'.connections_)) : u.Touches l u' := by
  simp only [Prod.mk.injEq] at hbefore hafter
  obtain ⟨hconns, hset, hphase⟩ := hbefore
  obtain ⟨hconns', hset'⟩ := hafter
  have hstatus : u.status = s.status := by
    unfold status
    rw [hconns]
  have hstatus' : u'.status = s'.status := by
    unfold status
    rw [hconns']
  cases h with
  | same => apply Touches.same <;> simp_all
  | makes fd hfresh =>
    have hfresh' : ∀ ptr state, u.status ptr = some (state, fd) → fd < 0 := by
      rw [hstatus]
      exact hfresh
    apply Touches.makes fd hfresh' <;> simp_all
  | changes ptr state state' fd => apply Touches.changes ptr state state' fd <;> simp_all
  | closes ptr state fd => apply Touches.closes ptr state fd <;> simp_all
  | clears => apply Touches.clears <;> simp_all

/-- A function of a connection that closes it exactly if it runs `handleClose`. -/
theorem Acts.touches {ptr : Nat} {conn : SharedConn} {c : Conn} {closing : Bool} (hacts : s.Acts ptr conn c s')
    (hconn : s.conns.object ptr = some conn) (hcloses : Conn.ClosesIf closing (s.view conn) c)
    (hby : s.phase.guard = [ptr] ∨ s.phase = .running) : s.Touches l s' := by
  have hstate := hcloses.state_
  have hcount := hcloses.closes
  cases hacts with
  | stays hzero =>
    have hclosing : closing = false := by
      cases closing with
      | false => rfl
      | true => simp [hzero] at hcount
    subst hclosing
    refine .changes ptr conn.state_ c.state_ conn.sockfd_ (status_of_object hconn) (.inl hstate) rfl ?_ rfl
    exact status_set s { conn with toTcpConnection := c.toTcpConnection } rfl
  | leaves hpos hmem =>
    have hclosing : closing = true := by
      cases closing with
      | true => rfl
      | false => exact (hpos hcount).elim
    subst hclosing
    refine .closes ptr conn.state_ conn.sockfd_ (status_of_object hconn) hmem hby rfl ?_ rfl
    rw [← show c.state_ = .kDisconnected from hstate]
    exact status_set s { conn with toTcpConnection := c.toTcpConnection } rfl

theorem newConnection_status (connfd : Int) (s : ServerWorld) :
    (newConnection connfd s).status = Function.update s.status s.conns.made (some (.kConnected, connfd)) := by
  have hconns : (newConnection connfd s).conns = s.conns.make _ := Shared.make_set _ _ _
  exact status_make s _ hconns

theorem newConnection_touches {result : AcceptResult} (hfresh : s.fresh result = true) (hcounted : s.conns.Counted) :
    s.Touches l (newConnection result.sockfd s) := by
  refine .makes result.sockfd ?_ rfl (newConnection_status _ s) rfl
  intro ptr state hstatus
  cases result with
  | failed errno => exact Int.negSucc_lt_zero 0
  | accepted fd =>
    simp only [status, Option.map_eq_some_iff, Prod.mk.injEq] at hstatus
    obtain ⟨conn, hconn, _, hfd⟩ := hstatus
    simp only [fresh, List.all_eq_true, List.mem_range] at hfresh
    have hne := hfresh ptr (hcounted ptr conn hconn)
    simp [hconn, hfd, AcceptResult.sockfd] at hne

/-- What a step does before the connections that it leaves without references are destroyed. -/
theorem advance_touches (hcounted : s.conns.Counted) (h : s.advance l = some s') : s.Touches l s' := by
  cases advance_moves h with
  | poll hphase hnodup hbatch =>
    exact .same (setRevents_foldl_made _ _) (funext fun ptr => setRevents_foldl _ _ ptr) rfl
  | accept hphase hfresh => exact newConnection_touches hfresh hcounted
  | dispatch hphase hconn hacts =>
    rename_i read write ptr stage conn acted
    have hclosing := Conn.runStage_closesIf (s.view conn) read write stage
    have hguard : s.phase.guard = [ptr] := by
      rw [hphase]
      rfl
    exact (hacts.touches hconn hclosing (.inl hguard)).frame rfl rfl
  | task hphase htasks hconn hacts =>
    rename_i write ptr task rest conn
    have hclosing := Conn.runTask_closesIf ((s.taken (ptr, task) rest).view conn) write task
    exact (hacts.touches hconn hclosing (.inr hphase)).frame rfl rfl
  | call huser hconn hacts =>
    rename_i ptr api write conn
    have hcloses : ((s.view conn).callInLoop write api).closes = 0 := (Conn.callInLoop_calm _ write api).closes
    cases hacts with
    | leaves hpos hmem => exact (hpos hcloses).elim
    | stays _ =>
      refine .changes ptr _ ((s.view conn).callInLoop write api).state_ _ (status_of_object hconn) ?_ rfl ?_ rfl
      · by_cases hshutdown : api = .shutdown
        · subst hshutdown
          exact .inr ⟨Conn.shutdown_state_ _, .inr rfl⟩
        · obtain hsame | ⟨hlive, hnext⟩ :=
            Conn.callInLoop_state_ (c := s.view conn) write (fun h => (hshutdown h).elim)
          · exact .inl hsame
          · exact .inr ⟨hnext, .inl hlive⟩
      · exact status_set s { conn with toTcpConnection := ((s.view conn).callInLoop write api).toTcpConnection } rfl
  | configure hconn hsame =>
    rename_i conn conn'
    simp only [Prod.mk.injEq] at hsame
    refine .changes _ _ conn'.state_ _ (status_of_object hconn) (.inl hsame.1) rfl ?_ rfl
    rw [← hsame.2.1]
    exact status_set s conn' rfl
  | destroyServer hphase => exact .clears rfl hphase rfl rfl rfl
  | exchange hcall hbusy hconn =>
    rename_i conn call call'
    refine .changes _ _ _ _ (status_of_object hconn) (.inr ⟨rfl, .inr trivial⟩) rfl ?_ rfl
    exact status_set s { conn with state_ := .kDisconnecting } rfl
  | _ => exact .same rfl rfl rfl

end ServerWorld

end mudong.ev
