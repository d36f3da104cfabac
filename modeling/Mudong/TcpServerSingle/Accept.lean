import Mudong.Lib.Run
import Mudong.TcpServerSingle

namespace mudong.ev

namespace ServerLabel

/-- The descriptor that a step's `accept4` returned. -/
def accepts : ServerLabel → List Int
  | .accept (.accepted fd) => [fd]
  | _ => []

/-- The descriptor that a step hands to `newConnection`. -/
def handsOver : ServerLabel → List Int
  | .accept result => [result.sockfd]
  | _ => []

end ServerLabel

namespace TcpServerSingle

/-- Every descriptor given to `newConnection` becomes that of a connection in the set, and the user is told. -/
theorem newConnection_spec (connfd : Int) (s : TcpServerSingle) :
    ∃ conn : ServerConn, conn.sockfd_ = connfd ∧ (newConnection connfd s).connections_ = s.connections_ ++ [conn] ∧
      (newConnection connfd s).inserted = s.inserted ++ [conn] ∧
      (newConnection connfd s).newConnections = s.newConnections ++ [connfd] :=
  ⟨_, rfl, rfl, rfl, rfl⟩

theorem step_accept {s s' : TcpServerSingle} {result : AcceptResult} (hstep : s.step (.accept result) = some s') :
    s' = newConnection result.sockfd s := by
  simp only [step, Acceptor.handleRead, Option.ite_none_right_eq_some] at hstep
  obtain ⟨_, hstep⟩ := hstep
  split at hstep
  · cases hstep
  · exact (Option.some.inj hstep).symm

/-- `newConnection` is run by the acceptor alone, on whatever `accept4` returned. -/
theorem step_newConnections {s s' : TcpServerSingle} {l : ServerLabel} (hstep : s.step l = some s') :
    s'.newConnections = s.newConnections ++ l.handsOver ∧
      s'.inserted.map ServerConn.sockfd_ = s.inserted.map ServerConn.sockfd_ ++ l.handsOver := by
  cases l with
  | accept result =>
    rw [step_accept hstep]
    obtain ⟨conn, hfd, _, hinserted, hnew⟩ := newConnection_spec result.sockfd s
    rw [hnew, hinserted, List.map_append, List.map_singleton, hfd]
    exact ⟨rfl, rfl⟩
  | close ptr =>
    simp only [step, Option.map_eq_some_iff] at hstep
    obtain ⟨conn, _, rfl⟩ := hstep
    exact ⟨(List.append_nil _).symm, (List.append_nil _).symm⟩
  | destroy ptr =>
    simp only [step, Option.map_eq_some_iff] at hstep
    obtain ⟨conn, _, rfl⟩ := hstep
    exact ⟨(List.append_nil _).symm, (List.append_nil _).symm⟩

/-- A failed accept leaves the set, the interest list and the connection callback alone. -/
def FailureHarmless (s : TcpServerSingle) (l : ServerLabel) : Prop :=
  ∀ errno s', l = .accept (.failed errno) → s.step l = some s' →
    s'.connections_ = s.connections_ ∧ s'.interestList = s.interestList ∧
      s'.connectionCallbacks = s.connectionCallbacks

/-- What the acceptor owes the server in a run that has led to `s`: one `newConnection` for each accepted
descriptor and no other, connections on accepted descriptors only, and failures that change nothing. -/
structure AcceptsOnly (s₀ : TcpServerSingle) (labels : List ServerLabel) (s : TcpServerSingle) : Prop where
  newConnections : s.newConnections = labels.flatMap ServerLabel.accepts
  inserted : ∀ conn ∈ s.inserted, conn.sockfd_ ∈ labels.flatMap ServerLabel.accepts
  harmless : Run.Along step FailureHarmless s₀ labels

/-- The acceptor keeps to it in exactly the runs in which no `accept4` fails: after a failure it goes on to
`newConnection` with the descriptor `-1`. -/
theorem acceptsOnly_iff {writeCompleteCallback_ : Bool} {labels : List ServerLabel} {s : TcpServerSingle}
    (hrun : Run.exec step (init writeCompleteCallback_) labels = some s) :
    AcceptsOnly (init writeCompleteCallback_) labels s ↔ ∀ errno, .accept (.failed errno) ∉ labels := by
  have hnew : s.newConnections = labels.flatMap ServerLabel.handsOver :=
    Run.exec_log newConnections ServerLabel.handsOver (fun _ _ _ hstep => (step_newConnections hstep).1) hrun
  have hinserted : s.inserted.map ServerConn.sockfd_ = labels.flatMap ServerLabel.handsOver :=
    Run.exec_log (fun s => s.inserted.map ServerConn.sockfd_) ServerLabel.handsOver
      (fun _ _ _ hstep => (step_newConnections hstep).2) hrun
  constructor
  · intro hkept errno hmem
    have hfailed : (-1 : Int) ∈ labels.flatMap ServerLabel.accepts := by
      rw [← hkept.newConnections, hnew]
      exact List.mem_flatMap.mpr ⟨_, hmem, List.mem_singleton_self _⟩
    obtain ⟨l, _, hl⟩ := List.mem_flatMap.mp hfailed
    unfold ServerLabel.accepts at hl
    split at hl
    · simp at hl
    · cases hl
  · intro hnone
    have hsame : labels.flatMap ServerLabel.handsOver = labels.flatMap ServerLabel.accepts := by
      refine List.flatMap_congr fun l hl => ?_
      cases l with
      | accept result =>
        cases result with
        | failed errno => exact (hnone errno hl).elim
        | accepted fd => rfl
      | close ptr => rfl
      | destroy ptr => rfl
    refine ⟨hnew.trans hsame, ?_, ?_⟩
    · intro conn hconn
      rw [← hsame, ← hinserted]
      exact List.mem_map_of_mem hconn
    · refine .of_forall fun l hl s errno s' hfailed => ?_
      exact (hnone errno (hfailed ▸ hl)).elim

/-- Two clients come, the first of them leaves, and a third gets its descriptor. -/
theorem acceptsOnly_three_clients :
    ∃ s, AcceptsOnly (init false)
      [.accept (.accepted 5), .accept (.accepted 6), .close 0, .destroy 0, .accept (.accepted 5)] s := by
  have hreaches : Run.Reaches step (init false)
      [.accept (.accepted 5), .accept (.accepted 6), .close 0, .destroy 0, .accept (.accepted 5)]
      (fun _ => True) := by decide
  obtain ⟨s, hrun, -⟩ := hreaches.exists
  exact ⟨s, (acceptsOnly_iff hrun).mpr (by simp)⟩

/-- After `EMFILE` the server has announced a connection on the descriptor `-1`. -/
theorem connection_on_failed_accept :
    ∃ s, Run.exec step (init false) [.accept (.accepted 5), .accept (.failed EMFILE)] = some s ∧
      s.connections_.map ServerConn.sockfd_ = [5, -1] ∧ s.connectionCallbacks = [0, 1] ∧
      ¬AcceptsOnly (init false) [.accept (.accepted 5), .accept (.failed EMFILE)] s := by
  apply Run.Reaches.exists_of (p := fun s => s.connections_.map ServerConn.sockfd_ = [5, -1] ∧
    s.connectionCallbacks = [0, 1] ∧ s.newConnections = [5, -1])
  · decide
  · rintro s hrun ⟨hconnections, hcallbacks, hnew⟩
    refine ⟨hconnections, hcallbacks, fun hkept => ?_⟩
    have haccepts := hkept.newConnections
    rw [hnew] at haccepts
    cases haccepts

end TcpServerSingle

end mudong.ev
