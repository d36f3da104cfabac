import Mudong.TcpServerSingle.Members

namespace mudong.ev

namespace ServerWorld

variable {s s' : ServerWorld} {l : ServerStep} {ptr : Nat}

/-- Every reference is to a connection that exists, and so is every call of another thread, which holds a reference
while it lasts. There are no tasks under way unless the loop is running them. -/
structure Referred (s : ServerWorld) : Prop where
  alive : ∀ ptr ∈ s.references, s.status ptr ≠ none
  busy : ∀ thread, (s.calls thread).2 ≠ .idle → (thread, (s.calls thread).1) ∈ s.held
  idle : s.phase ≠ .running → s.tasks = [] ∧ s.executed = []

theorem Referred.calling (hs : s.Referred) {thread : Nat} {call : Call} (hcall : s.calls thread = (ptr, call))
    (hbusy : call ≠ .idle) : (thread, ptr) ∈ s.held := by
  have hheld := hs.busy thread
  rw [hcall] at hheld
  exact hheld hbusy

/-- Whatever refers to a connection did so before, or the connection is of the kind `p`. -/
structure Adds (p : Nat → Prop) (s s' : ServerWorld) : Prop where
  set : ∀ ptr ∈ s'.connections_, ptr ∈ s.connections_ ∨ p ptr
  guard : ∀ ptr ∈ s'.phase.guard, ptr ∈ s.phase.guard ∨ p ptr
  closures : ∀ t ∈ s'.closures, t ∈ s.closures ∨ p t.1
  held : ∀ t ∈ s'.held, t ∈ s.held ∨ p t.2

theorem Adds.references {p : Nat → Prop} (h : Adds p s s') (hmem : ptr ∈ s'.references) :
    ptr ∈ s.references ∨ p ptr := by
  rw [mem_references] at hmem ⊢
  obtain hmem | hmem | ⟨task, hmem, hcaptures⟩ | ⟨thread, hmem⟩ := hmem
  · exact (h.set ptr hmem).imp .inl id
  · exact (h.guard ptr hmem).imp (fun h => .inr (.inl h)) id
  · exact (h.closures _ hmem).imp (fun h => .inr (.inr (.inl ⟨task, h, hcaptures⟩))) id
  · exact (h.held _ hmem).imp (fun h => .inr (.inr (.inr ⟨thread, h⟩))) id

theorem Adds.imp {p q : Nat → Prop} (h : Adds p s s') (hpq : ∀ ptr, p ptr → q ptr) : Adds q s s' :=
  ⟨fun ptr hptr => (h.set ptr hptr).imp id (hpq _), fun ptr hptr => (h.guard ptr hptr).imp id (hpq _),
    fun t ht => (h.closures t ht).imp id (hpq _), fun t ht => (h.held t ht).imp id (hpq _)⟩

theorem update_closures (s : ServerWorld) (ptr : Nat) (conn : SharedConn) (c : Conn) :
    (s.update ptr conn c).closures = s.closures ++ c.pendingTasks_.map fun task => (ptr, task) := by
  simp only [closures, update, List.append_assoc]

/-- The connection whose function is run is the only one that gets new references. -/
theorem Acts.adds {conn : SharedConn} {c : Conn} (h : s.Acts ptr conn c s') : Adds (· = ptr) s s' := by
  have hclosures : ∀ t ∈ (s.update ptr conn c).closures, t ∈ s.closures ∨ t.1 = ptr := by
    intro t ht
    rw [update_closures, List.mem_append, List.mem_map] at ht
    obtain hold | ⟨task, _, rfl⟩ := ht
    · exact .inl hold
    · exact .inr rfl
  cases h with
  | stays hcloses => exact ⟨fun _ => .inl, fun _ => .inl, hclosures, fun _ => .inl⟩
  | leaves hcloses hmem =>
    exact ⟨fun _ hi => .inl (List.mem_of_mem_erase hi), fun _ => .inl, hclosures, fun _ => .inl⟩

theorem taken_closures {t u : Nat × Task} {rest : List (Nat × Task)} (htasks : s.tasks = t :: rest) :
    u ∈ (s.taken t rest).closures ↔ u ∈ s.closures := by
  simp only [closures, taken, htasks, List.mem_append, List.mem_cons, List.not_mem_nil, or_false]
  tauto

/-- New references are to connections that exist. -/
theorem Moves.adds (h : s.Moves l s') (hs : s.Referred) (hkeeps : ∀ i, s.status i ≠ none → s'.status i ≠ none) :
    Adds (fun ptr => s'.status ptr ≠ none) s s' := by
  have halive {i : Nat} {conn : SharedConn} (hconn : s.conns.object i = some conn) : s'.status i ≠ none := by
    apply hkeeps
    rw [status_of_object hconn]
    exact Option.some_ne_none _
  have hguardless {phase : ServerPhase} (hphase : phase.guard = []) :
      ∀ i ∈ phase.guard, i ∈ s.phase.guard ∨ s'.status i ≠ none := by
    rw [hphase]
    intro i hi
    cases hi
  cases h with
  | poll hphase hnodup hbatch => exact ⟨fun _ => .inl, hguardless rfl, fun _ => .inl, fun _ => .inl⟩
  | accept hphase hfresh =>
    rename_i result
    have hmade : (newConnection result.sockfd s).status s.conns.made ≠ none := by
      simp [status, newConnection, update]
    refine ⟨?_, fun _ => .inl, ?_, fun _ => .inl⟩
    · intro i hi
      obtain hi | hi := List.mem_append.mp hi
      · exact .inl hi
      · rw [List.mem_singleton.mp hi]
        exact .inr hmade
    · intro t ht
      rw [newConnection, update_closures, List.mem_append, List.mem_map] at ht
      obtain hold | ⟨task, _, rfl⟩ := ht
      · exact .inl hold
      · exact .inr hmade
  | take hphase hbatch hconn =>
    refine ⟨fun _ => .inl, ?_, fun _ => .inl, fun _ => .inl⟩
    intro i hi
    rw [List.mem_singleton.mp hi]
    exact .inr (halive hconn)
  | dispatch hphase hconn hacts =>
    rename_i read write i stage conn acted
    have hadds := hacts.adds.imp (q := fun ptr => acted.status ptr ≠ none) (fun j hj => by rw [hj]; exact halive hconn)
    refine ⟨hadds.set, ?_, hadds.closures, hadds.held⟩
    intro j hj
    cases hnext : stage.next with
    | none =>
      rw [hnext] at hj
      cases hj
    | some next =>
      rw [hnext] at hj
      rw [List.mem_singleton.mp hj]
      exact .inr (halive hconn)
  | swap hphase hbatch =>
    obtain ⟨htasks, _⟩ := hs.idle (by rw [hphase]; simp)
    refine ⟨fun _ => .inl, hguardless rfl, ?_, fun _ => .inl⟩
    intro t ht
    simp only [closures, htasks, List.mem_append] at ht ⊢
    tauto
  | task hphase htasks hconn hacts =>
    rename_i write i task rest conn
    have hadds := hacts.adds.imp (q := fun ptr => s'.status ptr ≠ none) (fun j hj => by rw [hj]; exact halive hconn)
    exact ⟨hadds.set, hadds.guard, fun t ht => (hadds.closures t ht).imp (taken_closures htasks).mp id, hadds.held⟩
  | misuses hphase htasks hconn =>
    exact ⟨fun _ => .inl, fun _ => .inl, fun t ht => .inl ((taken_closures htasks).mp ht), fun _ => .inl⟩
  | endTasks hphase htasks =>
    refine ⟨fun _ => .inl, hguardless rfl, ?_, fun _ => .inl⟩
    intro t ht
    simp only [closures, List.mem_append] at ht ⊢
    tauto
  | call huser hconn hacts => exact hacts.adds.imp (fun j hj => by rw [hj]; exact halive hconn)
  | exit hphase => exact ⟨fun _ => .inl, hguardless rfl, fun _ => .inl, fun _ => .inl⟩
  | destroyServer hphase => exact ⟨by simp, hguardless rfl, fun _ => .inl, fun _ => .inl⟩
  | destroyLoop hphase =>
    refine ⟨fun _ => .inl, hguardless rfl, ?_, fun _ => .inl⟩
    intro t ht
    simp only [closures, List.append_nil] at ht ⊢
    exact .inl (List.mem_append_left _ ht)
  | hold hconn =>
    refine ⟨fun _ => .inl, fun _ => .inl, fun _ => .inl, ?_⟩
    intro t ht
    obtain ht | ht := List.mem_append.mp ht
    · exact .inl ht
    · rw [List.mem_singleton.mp ht]
      exact .inr (halive hconn)
  | drop hheld hidle =>
    exact ⟨fun _ => .inl, fun _ => .inl, fun _ => .inl, fun t ht => .inl (List.mem_of_mem_erase ht)⟩
  | push hcall =>
    rename_i thread i task
    have hheld : (thread, i) ∈ s.held := hs.calling hcall (by simp)
    refine ⟨fun _ => .inl, fun _ => .inl, ?_, fun _ => .inl⟩
    intro t ht
    simp only [closures, setCall, EventLoop.push, ← List.append_assoc] at ht
    obtain ht | ht := List.mem_append.mp ht
    · exact .inl ht
    · rw [List.mem_singleton.mp ht]
      exact .inr (hkeeps i (hs.alive i (mem_references.mpr (.inr (.inr (.inr ⟨thread, hheld⟩))))))
  | _ => exact ⟨fun _ => .inl, fun _ => .inl, fun _ => .inl, fun _ => .inl⟩

theorem setCall_busy (hs : ∀ i, (s.calls i).2 ≠ .idle → (i, (s.calls i).1) ∈ s.held) {thread : Nat} {call : Call}
    (hcall : call ≠ .idle → (thread, ptr) ∈ s.held) (i : Nat)
    (hbusy : ((s.setCall thread ptr call).calls i).2 ≠ .idle) :
    (i, ((s.setCall thread ptr call).calls i).1) ∈ s.held := by
  by_cases hi : i = thread
  · subst hi
    simp only [setCall, Function.update_self] at hbusy ⊢
    exact hcall hbusy
  · simp only [setCall, Function.update_of_ne hi] at hbusy ⊢
    exact hs i hbusy

theorem Moves.busy (h : s.Moves l s') (hs : s.Referred) (i : Nat) (hbusy : (s'.calls i).2 ≠ .idle) :
    (i, (s'.calls i).1) ∈ s'.held := by
  cases h with
  | dispatch hphase hconn hacts => cases hacts <;> exact hs.busy i hbusy
  | task hphase htasks hconn hacts => cases hacts <;> exact hs.busy i hbusy
  | call huser hconn hacts => cases hacts <;> exact hs.busy i hbusy
  | hold hconn => exact List.mem_append_left _ (hs.busy i hbusy)
  | drop hheld hidle =>
    rename_i thread ptr
    have hne : (i, (s.calls i).1) ≠ (thread, ptr) := by
      intro heq
      cases (Prod.mk.inj heq).1
      exact hbusy hidle
    exact (List.mem_erase_of_ne hne).mpr (hs.busy i hbusy)
  | start call failures hheld hidle => exact setCall_busy hs.busy (fun _ => hheld) i hbusy
  | exchange hcall hne hconn => exact setCall_busy hs.busy (fun _ => hs.calling hcall hne) i hbusy
  | push hcall => exact setCall_busy hs.busy (fun _ => hs.calling hcall (by simp)) i hbusy
  | wakeup hcall => exact setCall_busy hs.busy (fun _ => hs.calling hcall (by simp)) i hbusy
  | _ => exact hs.busy i hbusy

theorem Moves.idle (h : s.Moves l s') (hs : s.Referred) (hrunning : s'.phase ≠ .running) :
    s'.tasks = [] ∧ s'.executed = [] := by
  cases h with
  | poll hphase hnodup hbatch => exact hs.idle (by simp [hphase])
  | take hphase hbatch hconn => exact hs.idle (by simp [hphase])
  | dispatch hphase hconn hacts => cases hacts <;> exact hs.idle (by simp [hphase])
  | swap hphase hbatch => exact (hrunning rfl).elim
  | task hphase htasks hconn hacts => cases hacts <;> exact (hrunning hphase).elim
  | misuses hphase htasks hconn => exact (hrunning hphase).elim
  | endTasks hphase htasks => exact ⟨htasks, rfl⟩
  | call huser hconn hacts => cases hacts <;> exact hs.idle hrunning
  | exit hphase => exact hs.idle (by simp [hphase])
  | destroyServer hphase => exact hs.idle (by simp [hphase])
  | destroyLoop hphase => exact hs.idle (by simp [hphase])
  | _ => exact hs.idle hrunning

theorem Moves.referred (h : s.Moves l s') (htouches : s.Touches l s') (hmembers : s.Members) (hs : s.Referred) :
    s'.Referred := by
  have hkeeps : ∀ ptr, s.status ptr ≠ none → s'.status ptr ≠ none := by
    intro ptr hsome
    obtain ⟨⟨state, fd⟩, hstatus⟩ := Option.ne_none_iff_exists'.mp hsome
    obtain ⟨state', hstatus'⟩ := htouches.keeps hmembers hstatus
    rw [hstatus']
    exact Option.some_ne_none _
  refine ⟨fun ptr hmem => ?_, h.busy hs, h.idle hs⟩
  obtain hold | hnew := (h.adds hs hkeeps).references hmem
  · exact hkeeps ptr (hs.alive ptr hold)
  · exact hnew

theorem Referred.reap (hs : s.Referred) : s.reap.Referred := by
  refine ⟨fun ptr hmem => ?_, hs.busy, hs.idle⟩
  obtain ⟨status, hstatus⟩ := Option.ne_none_iff_exists'.mp (hs.alive ptr hmem)
  have hkept : s.reap.status ptr = some status := reap_status.mpr ⟨hmem, hstatus⟩
  rw [hkept]
  exact Option.some_ne_none _

theorem init_referred (writeCompleteCallback_ : Bool) : (init writeCompleteCallback_).Referred := by
  refine ⟨?_, ?_, fun _ => ⟨rfl, rfl⟩⟩
  · intro ptr hmem
    cases hmem
  · intro thread hbusy
    exact (hbusy rfl).elim

/-- The references of a run are counted: every one is to a connection that exists, and every connection that exists
has one. -/
structure Shares (s : ServerWorld) : Prop extends s.Members, s.Referred where
  referred : ∀ ptr, s.status ptr ≠ none → ptr ∈ s.references

theorem init_shares (writeCompleteCallback_ : Bool) : (init writeCompleteCallback_).Shares :=
  ⟨init_members _, init_referred _, fun _ hsome => (hsome rfl).elim⟩

theorem Shares.step (hs : s.Shares) (hstep : s.step l = some s') : s'.Shares := by
  obtain ⟨acted, hadvance, rfl⟩ := Option.map_eq_some_iff.mp hstep
  have htouches := advance_touches hs.counted hadvance
  have hreferred := (advance_moves hadvance).referred htouches hs.toMembers hs.toReferred
  refine ⟨(htouches.members hs.toMembers).reap, hreferred.reap, ?_⟩
  intro ptr hsome
  obtain ⟨status, hstatus⟩ := Option.ne_none_iff_exists'.mp hsome
  exact (reap_status.mp hstatus).1

end ServerWorld

end mudong.ev
