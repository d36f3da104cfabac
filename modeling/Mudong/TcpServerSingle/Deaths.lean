import Mudong.TcpServerSingle.Referred

namespace mudong.ev

namespace ServerWorld

variable {s s' : ServerWorld} {l : ServerStep}

/-- The server is destroyed when its connections are closed, and `shutdown()` is called within its assertion. -/
def Orderly (s : ServerWorld) : ServerStep → Prop
  | .destroyServer => s.connections_ = []
  | .call ptr .shutdown _ => ∀ conn ∈ s.conns.object ptr, conn.state_ ≠ .kDisconnected
  | _ => True

instance decidableOrderly (s : ServerWorld) : ∀ l, Decidable (s.Orderly l)
  | .destroyServer => inferInstanceAs (Decidable (s.connections_ = []))
  | .call ptr .shutdown _ => inferInstanceAs (Decidable (∀ conn ∈ s.conns.object ptr, conn.state_ ≠ .kDisconnected))
  | .call _ (.send _) _ | .call _ .forceClose _ | .call _ .stopRead _ | .call _ .startRead _ | .poll _ | .accept _
  | .take | .dispatch _ _ | .swap | .task _ | .endTasks | .configure _ _ _ _ _ | .quit | .exit | .destroyLoop | .hold _ _
  | .drop _ _ | .start _ _ _ | .advance _ => inferInstanceAs (Decidable True)

/-- A connection that has left the set is disconnected. -/
def LeavesClosed (s : ServerWorld) : Prop :=
  ∀ ptr state fd, s.status ptr = some (state, fd) → ptr ∉ s.connections_ → state = .kDisconnected

/-- The exchange of another thread apart, only `shutdown()` overwrites `state_`, and it asserts what it overwrites. -/
theorem Overwrites.live {ptr : Nat} (h : Overwrites ptr l) (hloop : l.inLoop = true) (horderly : s.Orderly l)
    {state : ConnectState} {fd : Int} (hstatus : s.status ptr = some (state, fd)) : state ≠ .kDisconnected := by
  cases l with
  | call i api write =>
    cases api with
    | shutdown =>
      obtain ⟨conn, hconn, heq⟩ := Option.map_eq_some_iff.mp hstatus
      cases heq
      cases h
      exact horderly conn hconn
    | _ => exact h.elim
  | advance thread => cases hloop
  | _ => exact h.elim

theorem Touches.leavesClosed (h : s.Touches l s') (hloop : l.inLoop = true) (horderly : s.Orderly l)
    (hs : s.LeavesClosed) : s'.LeavesClosed := by
  intro ptr state fd hstatus hmem
  cases h with
  | same hmade hafter hset =>
    rw [hafter] at hstatus
    rw [hset] at hmem
    exact hs ptr state fd hstatus hmem
  | makes fd' hfresh hmade hafter hset =>
    rw [hset, List.mem_append, List.mem_singleton, not_or] at hmem
    rw [hafter, Function.update_of_ne hmem.2] at hstatus
    exact hs ptr state fd hstatus hmem.1
  | changes ptr' old new fd' hold hstate hmade hafter hset =>
    rw [hset] at hmem
    by_cases hptr : ptr = ptr'
    · subst hptr
      rw [hafter, Function.update_self] at hstatus
      cases hstatus
      have hclosed : old = .kDisconnected := hs ptr old fd hold hmem
      obtain rfl | ⟨_, hlive | hoverwrites⟩ := hstate
      · exact hclosed
      · exact (hlive hclosed).elim
      · exact (hoverwrites.live hloop horderly hold hclosed).elim
    · rw [hafter, Function.update_of_ne hptr] at hstatus
      exact hs ptr state fd hstatus hmem
  | closes ptr' old fd' hold hmem' hby hmade hafter hset =>
    by_cases hptr : ptr = ptr'
    · rw [hafter, hptr, Function.update_self] at hstatus
      cases hstatus
      rfl
    · rw [hafter, Function.update_of_ne hptr] at hstatus
      rw [hset, List.mem_erase_of_ne hptr] at hmem
      exact hs ptr state fd hstatus hmem
  | clears hl hphase hmade hafter hset =>
    subst hl
    rw [hafter] at hstatus
    refine hs ptr state fd hstatus ?_
    rw [show s.connections_ = [] from horderly]
    exact List.not_mem_nil

theorem Moves.deaths (h : s.Moves l s') : s'.deaths = s.deaths := by
  cases h with
  | dispatch hphase hconn hacts => cases hacts <;> rfl
  | task hphase htasks hconn hacts => cases hacts <;> rfl
  | call huser hconn hacts => cases hacts <;> rfl
  | _ => rfl

/-- The connections that exist and those that have died, in a run that is orderly so far. -/
structure DiesClosed (s : ServerWorld) : Prop extends s.Shares where
  leaves : s.LeavesClosed
  deaths : ∀ d ∈ s.deaths, d.2 = .kDisconnected

theorem init_diesClosed (writeCompleteCallback_ : Bool) : (init writeCompleteCallback_).DiesClosed := by
  refine ⟨init_shares _, ?_, ?_⟩
  · intro ptr state fd hstatus
    cases hstatus
  · intro d hd
    cases hd

theorem DiesClosed.step (hs : s.DiesClosed) (hloop : l.inLoop = true) (horderly : s.Orderly l)
    (hstep : s.step l = some s') : s'.DiesClosed := by
  refine ⟨hs.toShares.step hstep, ?_, ?_⟩
  all_goals obtain ⟨acted, hadvance, rfl⟩ := Option.map_eq_some_iff.mp hstep
  all_goals have hleaves := (advance_touches hs.counted hadvance).leavesClosed hloop horderly hs.leaves
  · intro ptr state fd hstatus hmem
    exact hleaves ptr state fd (reap_status.mp hstatus).2 hmem
  · intro d hd
    obtain hd | hd := List.mem_append.mp hd
    · rw [(advance_moves hadvance).deaths] at hd
      exact hs.deaths d hd
    · -- Nothing that the set refers to is destroyed.
      obtain ⟨p, hp, rfl⟩ := List.mem_map.mp hd
      obtain ⟨hnot, hobject⟩ := Shared.of_mem_swept hp
      exact hleaves p.1 p.2.state_ p.2.sockfd_ (status_of_object hobject)
        (fun hmem => hnot (mem_references.mpr (.inl hmem)))

/-- In a run of the loop thread that closes the connections before the server is destroyed, every connection is
disconnected when it dies. -/
theorem connections_die_disconnected {writeCompleteCallback_ : Bool} {ls : List ServerStep}
    (hrun : Run.exec step (init writeCompleteCallback_) ls = some s) (hloop : ∀ l ∈ ls, l.inLoop = true)
    (horderly : Run.Along step Orderly (init writeCompleteCallback_) ls) : ∀ d ∈ s.deaths, d.2 = .kDisconnected := by
  have halong : Run.Along step (fun s l => l.inLoop = true ∧ s.Orderly l) (init writeCompleteCallback_) ls :=
    (Run.Along.of_labels hloop).and horderly
  exact (Run.exec_invariant (fun _ _ _ hs hconds hstep => hs.step hconds.1 hconds.2 hstep) (init_diesClosed _) halong
    hrun).deaths

/-- A connection that has called `shutdown()` meets the end of the stream, and a second one is closed by force. Then the
server is destroyed. -/
theorem connections_die_before_server :
    ∃ s, Run.exec step (init false)
        [.poll [], .accept (.accepted 5), .accept (.accepted 6), .call 0 .shutdown (.accepted 0), .swap, .endTasks,
          .poll [(5, EPOLLIN)], .take, .dispatch (.filled []) (.accepted 0), .dispatch (.filled []) (.accepted 0),
          .dispatch (.filled []) (.accepted 0), .dispatch (.filled []) (.accepted 0), .call 1 .forceClose (.accepted 0),
          .swap, .task (.accepted 0), .endTasks, .quit, .exit, .destroyServer, .destroyLoop] = some s ∧
      s.deaths = [(0, .kDisconnected), (1, .kDisconnected)] ∧ ∀ d ∈ s.deaths, d.2 = .kDisconnected := by
  apply Run.Reaches.exists_of (p := fun s => s.deaths = [(0, .kDisconnected), (1, .kDisconnected)])
  · decide +kernel
  · intro s hrun hdeaths
    exact ⟨hdeaths, connections_die_disconnected hrun (by simp [ServerStep.inLoop]) (by decide +kernel)⟩

/-- The loop is left with an open connection, as `TcpServer::runInThread` does, and the server is destroyed. -/
theorem server_destroyed_with_open_connection :
    ∃ s, Run.exec step (init false)
        [.poll [], .accept (.accepted 5), .swap, .endTasks, .quit, .exit, .destroyServer] = some s ∧
      s.deaths = [(0, .kConnected)] := by
  apply Run.Reaches.exists
  decide +kernel

end ServerWorld

end mudong.ev
