import Mudong.TcpServerSingle.Referred

namespace mudong.ev

namespace ServerWorld

variable {s s' : ServerWorld} {l : ServerStep} {ptr : Nat}

/-- Every entry of the interest list is that of a connection that exists, for its own descriptor. -/
def Listed (s : ServerWorld) : Prop :=
  ∀ fd r, s.interestList fd = some r → 0 ≤ fd ∧ ∃ state, s.status r.channel = some (state, fd)

theorem update_listed {conn : SharedConn} {c : Conn} {fd : Int} {r : Registration Nat}
    (hr : (s.update ptr conn c).interestList fd = some r) :
    s.interestList fd = some r ∨ 0 ≤ fd ∧ r.channel = ptr ∧ fd = conn.sockfd_ := by
  simp only [update] at hr
  split at hr
  · exact .inl hr
  · rename_i hsockfd
    by_cases hfd : fd = conn.sockfd_
    · rw [hfd, Function.update_self, Option.map_eq_some_iff] at hr
      obtain ⟨events, _, rfl⟩ := hr
      exact .inr ⟨by omega, rfl, hfd⟩
    · rw [Function.update_of_ne hfd] at hr
      exact .inl hr

theorem Acts.listed {conn : SharedConn} {c : Conn} (h : s.Acts ptr conn c s') {fd : Int} {r : Registration Nat}
    (hr : s'.interestList fd = some r) : s.interestList fd = some r ∨ 0 ≤ fd ∧ r.channel = ptr ∧ fd = conn.sockfd_ := by
  cases h with
  | stays hcloses => exact update_listed hr
  | leaves hcloses hmem => exact update_listed hr

/-- What a step adds to the interest list is an entry of the connection whose function is run. -/
theorem Moves.listed (h : s.Moves l s') {fd : Int} {r : Registration Nat} (hr : s'.interestList fd = some r) :
    s.interestList fd = some r ∨ 0 ≤ fd ∧
      ((∃ state, s.status r.channel = some (state, fd)) ∨ ∃ state, s'.status r.channel = some (state, fd)) := by
  have hown {i : Nat} {conn : SharedConn} (hconn : s.conns.object i = some conn)
      (h : 0 ≤ fd ∧ r.channel = i ∧ fd = conn.sockfd_) :
      0 ≤ fd ∧
        ((∃ state, s.status r.channel = some (state, fd)) ∨ ∃ state, s'.status r.channel = some (state, fd)) := by
    obtain ⟨hfd, hchannel, rfl⟩ := h
    rw [hchannel]
    exact ⟨hfd, .inl ⟨_, status_of_object hconn⟩⟩
  cases h with
  | accept hphase hfresh =>
    rename_i result
    rw [newConnection] at hr
    refine (update_listed hr).imp id ?_
    rintro ⟨hfd, hchannel, rfl⟩
    refine ⟨hfd, .inr ⟨.kConnected, ?_⟩⟩
    rw [newConnection_status, hchannel]
    exact Function.update_self ..
  | dispatch hphase hconn hacts => exact (hacts.listed hr).imp id (hown hconn)
  | task hphase htasks hconn hacts => exact (hacts.listed hr).imp id (hown hconn)
  | call huser hconn hacts => exact (hacts.listed hr).imp id (hown hconn)
  | _ => exact .inl hr

/-- The descriptors of the connections that are destroyed leave the list. -/
theorem close_foldl {dead : List (Nat × SharedConn)} {list : InterestList Nat} {fd : Int} {r : Registration Nat}
    (hr : dead.foldl (fun list p => list.close p.2.sockfd_) list fd = some r) :
    list fd = some r ∧ ∀ p ∈ dead, p.2.sockfd_ ≠ fd := by
  induction dead generalizing list with
  | nil => exact ⟨hr, by simp⟩
  | cons p dead ih =>
    obtain ⟨hclosed, hdead⟩ := ih hr
    obtain ⟨hne, hlisted⟩ := InterestList.close_eq_some.mp hclosed
    refine ⟨hlisted, ?_⟩
    intro q hq
    obtain rfl | hq := List.mem_cons.mp hq
    · exact hne.symm
    · exact hdead q hq

theorem Listed.reap (h : s.Listed) (hcounted : s.conns.Counted) : s.reap.Listed := by
  intro fd r hr
  obtain ⟨hlisted, hdead⟩ := close_foldl hr
  obtain ⟨hfd, state, hstatus⟩ := h fd r hlisted
  refine ⟨hfd, state, reap_status.mpr ⟨?_, hstatus⟩⟩
  by_contra hnot
  obtain ⟨conn, hconn, heq⟩ := Option.map_eq_some_iff.mp hstatus
  exact hdead _ (hcounted.mem_swept hnot hconn) (Prod.mk.inj heq).2

theorem Listed.step (h : s.Listed) (hs : s.Shares) (hstep : s.step l = some s') : s'.Listed := by
  obtain ⟨acted, hadvance, rfl⟩ := Option.map_eq_some_iff.mp hstep
  have htouches := advance_touches hs.counted hadvance
  have hacted : acted.Listed := by
    intro fd r hr
    obtain hold | ⟨hfd, ⟨state, hstatus⟩ | hstatus⟩ := (advance_moves hadvance).listed hr
    · obtain ⟨hfd, state, hstatus⟩ := h fd r hold
      exact ⟨hfd, htouches.keeps hs.toMembers hstatus⟩
    · exact ⟨hfd, htouches.keeps hs.toMembers hstatus⟩
    · exact ⟨hfd, hstatus⟩
  exact hacted.reap (htouches.members hs.toMembers).counted

/-- What a poll reports is the connection of an entry, with the events that were ready on its descriptor. -/
theorem report_listed (hs : s.Listed) {ready : List (Int × Events)} {batch : List (Nat × Events)}
    (hbatch : ready.mapM s.report = some batch) :
    ∀ q ∈ batch, ∃ fd state, 0 ≤ fd ∧ (fd, q.2) ∈ ready ∧ s.status q.1 = some (state, fd) := by
  induction ready generalizing batch with
  | nil =>
    cases hbatch
    simp
  | cons p ready ih =>
    simp only [List.mapM_cons, Option.bind_eq_bind, Option.bind_eq_some_iff, Option.pure_def,
      Option.some.injEq] at hbatch
    obtain ⟨reported, hreport, rest, hrest, rfl⟩ := hbatch
    intro q hq
    obtain rfl | hq := List.mem_cons.mp hq
    · simp only [report, Option.bind_eq_some_iff, Option.ite_none_right_eq_some, Option.some.injEq] at hreport
      obtain ⟨r, hr, _, rfl⟩ := hreport
      obtain ⟨hfd, state, hstatus⟩ := hs p.1 r hr
      exact ⟨p.1, state, hfd, List.mem_cons_self, hstatus⟩
    · obtain ⟨fd, state, hfd, hmem, hstatus⟩ := ih hrest q hq
      exact ⟨fd, state, hfd, List.mem_cons_of_mem _ hmem, hstatus⟩

/-- Different descriptors belong to different connections. -/
theorem report_nodup (hs : s.Listed) {ready : List (Int × Events)} {batch : List (Nat × Events)}
    (hnodup : (ready.map Prod.fst).Nodup) (hbatch : ready.mapM s.report = some batch) :
    (batch.map Prod.fst).Nodup := by
  induction ready generalizing batch with
  | nil =>
    cases hbatch
    exact List.nodup_nil
  | cons p ready ih =>
    simp only [List.mapM_cons, Option.bind_eq_bind, Option.bind_eq_some_iff, Option.pure_def,
      Option.some.injEq] at hbatch
    obtain ⟨reported, hreport, rest, hrest, rfl⟩ := hbatch
    obtain ⟨hnew, hnodup⟩ := List.nodup_cons.mp hnodup
    refine List.nodup_cons.mpr ⟨?_, ih hnodup hrest⟩
    intro hmem
    obtain ⟨q, hq, heq⟩ := List.mem_map.mp hmem
    obtain ⟨fd, state, _, hready, hstatus⟩ := report_listed hs hrest q hq
    simp only [report, Option.bind_eq_some_iff, Option.ite_none_right_eq_some, Option.some.injEq] at hreport
    obtain ⟨r, hr, _, rfl⟩ := hreport
    obtain ⟨_, state', hstatus'⟩ := hs p.1 r hr
    rw [heq, hstatus'] at hstatus
    cases hstatus
    exact hnew (List.mem_map.mpr ⟨_, hready, rfl⟩)

theorem setRevents_of_ne (conns : Shared SharedConn) {p : Nat × Events} (hne : ptr ≠ p.1) :
    (setRevents conns p).object ptr = conns.object ptr := by
  unfold setRevents
  split
  · exact Shared.set_object_of_ne _ hne _
  · rfl

theorem setRevents_self {conns : Shared SharedConn} {p : Nat × Events} {conn : SharedConn}
    (hconn : (setRevents conns p).object p.1 = some conn) : conn.channel_.revents_ = p.2 := by
  unfold setRevents at hconn
  split at hconn
  · rw [Shared.set_object_self] at hconn
    cases hconn
    rfl
  · rename_i hnone
    cases hnone.symm.trans hconn

theorem setRevents_foldl_of_notMem {batch : List (Nat × Events)} (hnot : ptr ∉ batch.map Prod.fst)
    (conns : Shared SharedConn) : (batch.foldl setRevents conns).object ptr = conns.object ptr := by
  induction batch generalizing conns with
  | nil => rfl
  | cons p batch ih =>
    rw [List.map_cons, List.mem_cons, not_or] at hnot
    rw [List.foldl_cons, ih hnot.2, setRevents_of_ne conns hnot.1]

/-- Every channel of the batch gets its own events. -/
theorem setRevents_foldl_revents_ {batch : List (Nat × Events)} (hnodup : (batch.map Prod.fst).Nodup)
    {p : Nat × Events} (hmem : p ∈ batch) {conns : Shared SharedConn} {conn : SharedConn}
    (hconn : (batch.foldl setRevents conns).object p.1 = some conn) : conn.channel_.revents_ = p.2 := by
  induction batch generalizing conns with
  | nil => cases hmem
  | cons q batch ih =>
    rw [List.map_cons, List.nodup_cons] at hnodup
    rw [List.foldl_cons] at hconn
    obtain rfl | hmem := List.mem_cons.mp hmem
    · rw [setRevents_foldl_of_notMem hnodup.1] at hconn
      exact setRevents_self hconn
    · exact ih hnodup.2 hmem hconn

/-- The loop has a batch only while it handles it, and none of the connections in it is being dispatched. -/
structure Batched (s : ServerWorld) : Prop where
  handling : s.batch ≠ [] → ∃ current, s.phase = .handling current
  distinct : (s.phase.guard ++ s.batch).Nodup

theorem Batched.empty (hs : s.Batched) (hphase : ∀ current, s.phase ≠ .handling current) : s.batch = [] := by
  by_contra hne
  obtain ⟨current, hcurrent⟩ := hs.handling hne
  exact hphase current hcurrent

theorem Batched.of_empty (hbatch : s.batch = []) (hguard : s.phase.guard = []) : s.Batched := by
  refine ⟨fun hne => (hne hbatch).elim, ?_⟩
  rw [hbatch, hguard]
  exact List.nodup_nil

theorem Acts.batched {conn : SharedConn} {c : Conn} (h : s.Acts ptr conn c s') (hs : s.Batched) : s'.Batched := by
  cases h with
  | stays hcloses => exact ⟨hs.handling, hs.distinct⟩
  | leaves hcloses hmem => exact ⟨hs.handling, hs.distinct⟩

theorem Moves.batched (h : s.Moves l s') (hl : ∀ ready, l ≠ .poll ready) (hs : s.Batched) : s'.Batched := by
  cases h with
  | poll hphase hnodup hbatch => exact (hl _ rfl).elim
  | take hphase hbatch hconn =>
    have hnodup := hs.distinct
    rw [hphase, hbatch] at hnodup
    exact ⟨fun _ => ⟨_, rfl⟩, hnodup⟩
  | dangles hphase hbatch hconn =>
    have hnodup := hs.distinct
    rw [hphase, hbatch] at hnodup
    refine ⟨fun _ => ⟨_, hphase⟩, ?_⟩
    rw [hphase]
    exact (List.nodup_cons.mp hnodup).2
  | dispatch hphase hconn hacts =>
    rename_i read write i stage conn acted
    have hnodup := (hacts.batched hs).distinct
    have hsame : acted.phase = s.phase := by
      cases hacts <;> rfl
    rw [hsame, hphase] at hnodup
    refine ⟨fun _ => ⟨_, rfl⟩, ?_⟩
    cases stage with
    | onWrite => exact (List.nodup_cons.mp hnodup).2
    | _ => exact hnodup
  | swap hphase hbatch => exact .of_empty hbatch rfl
  | task hphase htasks hconn hacts => exact hacts.batched ⟨hs.handling, hs.distinct⟩
  | endTasks hphase htasks => exact .of_empty (hs.empty (by simp [hphase])) rfl
  | call huser hconn hacts => exact hacts.batched hs
  | exit hphase => exact .of_empty (hs.empty (by simp [hphase])) rfl
  | destroyServer hphase => exact .of_empty (hs.empty (by simp [hphase])) rfl
  | destroyLoop hphase => exact .of_empty (hs.empty (by simp [hphase])) rfl
  | _ => exact ⟨hs.handling, hs.distinct⟩

theorem Moves.mem_batch (h : s.Moves l s') (hl : ∀ ready, l ≠ .poll ready) (hmem : ptr ∈ s'.batch) : ptr ∈ s.batch := by
  cases h with
  | poll hphase hnodup hbatch => exact (hl _ rfl).elim
  | take hphase hbatch hconn =>
    rw [hbatch]
    exact List.mem_cons_of_mem _ hmem
  | dangles hphase hbatch hconn =>
    rw [hbatch]
    exact List.mem_cons_of_mem _ hmem
  | dispatch hphase hconn hacts => cases hacts <;> exact hmem
  | task hphase htasks hconn hacts => cases hacts <;> exact hmem
  | call huser hconn hacts => cases hacts <;> exact hmem
  | _ => exact hmem

theorem Acts.pending {conn : SharedConn} {c : Conn} (h : s.Acts ptr conn c s') :
    ∀ t ∈ s.pendingTasks_, t ∈ s'.pendingTasks_ := by
  intro t ht
  cases h with
  | stays hcloses => exact List.mem_append_left _ ht
  | leaves hcloses hmem => exact List.mem_append_left _ ht

/-- A function of a connection changes the others in no way. -/
theorem Acts.object {conn : SharedConn} {c : Conn} (h : s.Acts ptr conn c s') (i : Nat) : s'.conns.object i =
    if i = ptr then some { conn with toTcpConnection := c.toTcpConnection } else s.conns.object i := by
  cases h <;> exact Shared.set_object _ _ _ i

/-- What stays the same of a connection that is in the batch. -/
structure Spares (ptr : Nat) (s s' : ServerWorld) : Prop where
  queued : ∀ t ∈ s.pendingTasks_, t ∈ s'.pendingTasks_
  polled : ∀ conn', s'.conns.object ptr = some conn' → ∃ conn, s.conns.object ptr = some conn ∧
    conn'.sockfd_ = conn.sockfd_ ∧ conn'.channel_.revents_ = conn.channel_.revents_

theorem Spares.of_same (hpending : ∀ t ∈ s.pendingTasks_, t ∈ s'.pendingTasks_)
    (hobject : s'.conns.object ptr = s.conns.object ptr) : Spares ptr s s' := by
  refine ⟨hpending, ?_⟩
  intro conn' hconn'
  rw [hobject] at hconn'
  exact ⟨conn', hconn', rfl, rfl⟩

/-- A change to one connection that leaves its descriptor and its events alone. -/
theorem Spares.of_set {i : Nat} {conn conn' : SharedConn} (hpending : ∀ t ∈ s.pendingTasks_, t ∈ s'.pendingTasks_)
    (hconn : s.conns.object i = some conn)
    (hobject : s'.conns.object ptr = if ptr = i then some conn' else s.conns.object ptr)
    (hsame : (conn'.sockfd_, conn'.channel_.revents_) = (conn.sockfd_, conn.channel_.revents_)) : Spares ptr s s' := by
  by_cases hptr : ptr = i
  · subst hptr
    rw [if_pos rfl] at hobject
    refine ⟨hpending, ?_⟩
    intro found hfound
    cases hobject.symm.trans hfound
    exact ⟨conn, hconn, Prod.mk.inj hsame⟩
  · rw [if_neg hptr] at hobject
    exact .of_same hpending hobject

/-- While a connection waits for its dispatch, the loop thread runs functions of others or is called by its user. -/
theorem Moves.spares (h : s.Moves l s') (hl : ∀ ready, l ≠ .poll ready) (hs : s.Batched) (hmem : ptr ∈ s.batch)
    (hmade : ptr < s.conns.made) : Spares ptr s s' := by
  obtain ⟨current, hcurrent⟩ := hs.handling (List.ne_nil_of_mem hmem)
  cases h with
  | poll hphase hnodup hbatch => exact (hl _ rfl).elim
  | accept hphase hfresh =>
    rename_i result
    have hconns : (newConnection result.sockfd s).conns = s.conns.make _ := Shared.make_set _ _ _
    refine .of_same (fun t ht => List.mem_append_left _ ht) ?_
    rw [hconns]
    exact Shared.make_object_of_ne _ hmade.ne _
  | dispatch hphase hconn hacts =>
    rename_i read write i stage conn acted
    have hnodup := hs.distinct
    rw [hphase] at hnodup
    have hptr : ptr ≠ i := ne_of_mem_of_not_mem hmem (List.nodup_cons.mp hnodup).1
    exact .of_same hacts.pending ((hacts.object ptr).trans (if_neg hptr))
  | swap hphase hbatch => simp [hbatch] at hmem
  | task hphase htasks hconn hacts => cases hphase.symm.trans hcurrent
  | call huser hconn hacts =>
    refine .of_set hacts.pending hconn (hacts.object ptr) ?_
    rw [Prod.mk.injEq]
    exact ⟨rfl, (Conn.callInLoop_calm _ _ _).revents_⟩
  | configure hconn hsame =>
    rename_i conn conn'
    simp only [Prod.mk.injEq] at hsame
    refine .of_set (fun _ => id) hconn (Shared.set_object _ _ conn' ptr) ?_
    rw [hsame.2.1, hsame.2.2]
  | destroyLoop hphase => cases hphase.symm.trans hcurrent
  | exchange hcall hbusy hconn => exact .of_set (fun _ => id) hconn (Shared.set_object _ _ _ ptr) rfl
  | push hcall => exact .of_same (fun t ht => List.mem_append_left _ ht) rfl
  | _ => exact .of_same (fun _ => id) rfl

/-- A connection that waits for its dispatch stays in the set. -/
theorem Touches.stays (h : s.Touches l s') (hs : s.Batched) (hmem : ptr ∈ s.batch) (hset : ptr ∈ s.connections_) :
    ptr ∈ s'.connections_ := by
  obtain ⟨current, hcurrent⟩ := hs.handling (List.ne_nil_of_mem hmem)
  cases h with
  | same hmade hafter hsame =>
    rw [hsame]
    exact hset
  | makes fd hfresh hmade hafter hsame =>
    rw [hsame]
    exact List.mem_append_left _ hset
  | changes i old new fd hold hstate hmade hafter hsame =>
    rw [hsame]
    exact hset
  | closes i old fd hold hmem' hby hmade hafter herased =>
    -- A close is the connection's own dispatch, or it is left to the tasks.
    obtain hguard | hrunning := hby
    · have hnodup := hs.distinct
      rw [hguard] at hnodup
      have hptr : ptr ≠ i := ne_of_mem_of_not_mem hmem (List.nodup_cons.mp hnodup).1
      rw [herased]
      exact (List.mem_erase_of_ne hptr).mpr hset
    · cases hrunning.symm.trans hcurrent
  | clears hl hphase hmade hafter hcleared => cases hphase.symm.trans hcurrent

/-- What holds of the batch that was polled in the world `before`, until it is finished. -/
structure Undispatched (before : ServerWorld) (ready : List (Int × Events)) (s : ServerWorld) : Prop extends s.Shares,
    s.Batched where
  made : ∀ ptr ∈ s.batch, ptr < s.conns.made
  stays : ∀ ptr ∈ s.batch, ptr ∈ before.connections_ → ptr ∈ s.connections_
  queued : ∀ ptr ∈ s.batch, ∀ t ∈ before.pendingTasks_, t ∈ s.pendingTasks_
  polled : ∀ ptr ∈ s.batch, ∃ fd revents state, 0 ≤ fd ∧ (fd, revents) ∈ ready ∧ before.status ptr = some (state, fd) ∧
    ∀ conn, s.conns.object ptr = some conn → conn.sockfd_ = fd ∧ conn.channel_.revents_ = revents

theorem poll_undispatched {before : ServerWorld} {ready : List (Int × Events)} (hs : before.Shares)
    (hlisted : before.Listed) (hstep : before.step (.poll ready) = some s) : Undispatched before ready s := by
  have hshares := hs.step hstep
  obtain ⟨acted, hadvance, rfl⟩ := Option.map_eq_some_iff.mp hstep
  cases advance_moves hadvance with
  | poll hphase hnodup hbatch =>
    rename_i batch
    have hreported := report_listed hlisted hbatch
    have hdistinct := report_nodup hlisted hnodup hbatch
    refine ⟨hshares, ⟨fun _ => ⟨none, rfl⟩, hdistinct⟩, ?_, fun _ _ => id, fun _ _ _ => id, ?_⟩
    · intro ptr hmem
      obtain ⟨q, hq, rfl⟩ := List.mem_map.mp hmem
      obtain ⟨fd, state, _, _, hstatus⟩ := hreported q hq
      have hlt := counted_iff.mp hs.counted q.1 (by simp [hstatus])
      exact lt_of_lt_of_eq hlt (setRevents_foldl_made batch before.conns).symm
    · intro ptr hmem
      obtain ⟨q, hq, rfl⟩ := List.mem_map.mp hmem
      obtain ⟨fd, state, hfd, hready, hstatus⟩ := hreported q hq
      refine ⟨fd, q.2, state, hfd, hready, hstatus, ?_⟩
      intro conn hconn
      obtain ⟨_, hconn⟩ := reap_object.mp hconn
      refine ⟨?_, setRevents_foldl_revents_ hdistinct hq hconn⟩
      have hsame := (setRevents_foldl batch before.conns q.1).trans hstatus
      rw [hconn] at hsame
      exact (Prod.mk.inj (Option.some.inj hsame)).2

theorem Undispatched.step {before : ServerWorld} {ready : List (Int × Events)} (hs : Undispatched before ready s)
    (hl : ∀ ready, l ≠ .poll ready) (hstep : s.step l = some s') : Undispatched before ready s' := by
  have hshares := hs.toShares.step hstep
  obtain ⟨acted, hadvance, rfl⟩ := Option.map_eq_some_iff.mp hstep
  have hmoves := advance_moves hadvance
  have htouches := advance_touches hs.counted hadvance
  have hbatched := hmoves.batched hl hs.toBatched
  refine ⟨hshares, ⟨hbatched.handling, hbatched.distinct⟩, ?_, ?_, ?_, ?_⟩
  all_goals
    intro ptr hafter
    have hmem := hmoves.mem_batch hl hafter
    have hmade := hs.made ptr hmem
    have hspares := hmoves.spares hl hs.toBatched hmem hmade
  · exact lt_of_lt_of_le hmade htouches.made_le
  · intro hbefore
    exact htouches.stays hs.toBatched hmem (hs.stays ptr hmem hbefore)
  · intro t ht
    exact hspares.queued t (hs.queued ptr hmem t ht)
  · obtain ⟨fd, revents, state, hfd, hready, hstatus, hown⟩ := hs.polled ptr hmem
    refine ⟨fd, revents, state, hfd, hready, hstatus, ?_⟩
    intro conn' hconn'
    obtain ⟨_, hconn'⟩ := reap_object.mp hconn'
    obtain ⟨conn, hconn, hsockfd, hrevents⟩ := hspares.polled conn' hconn'
    rw [hsockfd, hrevents]
    exact hown conn hconn

theorem run_listed {writeCompleteCallback_ : Bool} {ls : List ServerStep}
    (hrun : Run.exec step (init writeCompleteCallback_) ls = some s) : s.Shares ∧ s.Listed := by
  have hinit : (init writeCompleteCallback_).Listed := by
    intro fd r hr
    cases hr
  exact Run.exec_preserves (I := fun s => s.Shares ∧ s.Listed)
    (fun _ _ _ hs hstep => ⟨hs.1.step hstep, hs.2.step hs.1 hstep⟩) ⟨init_shares _, hinit⟩ hrun

/-- A connection that the loop has polled and not dispatched yet. `before` is the world at the poll, and `after` any
world until the batch is finished. -/
structure Serves (before after : ServerWorld) (ready : List (Int × Events)) (ptr : Nat) : Prop where
  /-- The events that it will be dispatched with are those that were polled for it, and nothing else has its
  descriptor. -/
  own : ∃ fd revents state, (fd, revents) ∈ ready ∧ before.status ptr = some (state, fd) ∧
    ∀ conn, after.conns.object ptr = some conn → conn.sockfd_ = fd ∧ conn.channel_.revents_ = revents ∧
      ∀ other conn', after.conns.object other = some conn' → conn'.sockfd_ = fd → other = ptr
  member : ptr ∈ before.connections_ → ptr ∈ after.connections_ ∧
    ∃ conn, after.conns.object ptr = some conn ∧ conn.state_ ≠ .kDisconnected
  alive : before.held = [] → ∃ conn, after.conns.object ptr = some conn

/-- At the poll nothing but the set, the queue and other threads refers to a connection. -/
theorem Shares.polling (hs : s.Shares) (hphase : s.phase = .polling) (hheld : s.held = [])
    (hsome : s.status ptr ≠ none) :
    ptr ∈ s.connections_ ∨ ∃ task, (ptr, task) ∈ s.pendingTasks_ ∧ task.captures = true := by
  obtain ⟨htasks, hexecuted⟩ := hs.idle (by simp [hphase])
  obtain hmem | hguard | ⟨task, hmem, hcaptures⟩ | ⟨thread, hmem⟩ := mem_references.mp (hs.referred ptr hsome)
  · exact .inl hmem
  · rw [hphase] at hguard
    cases hguard
  · rw [closures, htasks, hexecuted] at hmem
    exact .inr ⟨task, hmem, hcaptures⟩
  · rw [hheld] at hmem
    cases hmem

theorem Undispatched.serves {before : ServerWorld} {ready : List (Int × Events)} (hs : Undispatched before ready s)
    (hbefore : before.Shares) (hphase : before.phase = .polling) (hmem : ptr ∈ s.batch) :
    Serves before s ready ptr := by
  obtain ⟨fd, revents, state, hfd, hready, hstatus, hown⟩ := hs.polled ptr hmem
  refine ⟨⟨fd, revents, state, hready, hstatus, ?_⟩, ?_, ?_⟩
  · intro conn hconn
    obtain ⟨hsockfd, hrevents⟩ := hown conn hconn
    refine ⟨hsockfd, hrevents, ?_⟩
    intro other conn' hconn' hsockfd'
    have hother := status_of_object hconn'
    have hptr := status_of_object hconn
    rw [hsockfd'] at hother
    rw [hsockfd] at hptr
    exact hs.unique other ptr _ _ fd hother hptr hfd
  · intro hset
    have hstays := hs.stays ptr hmem hset
    obtain ⟨state', fd', hmember, hlive⟩ := hs.member ptr hstays
    obtain ⟨conn, hconn, heq⟩ := Option.map_eq_some_iff.mp hmember
    cases heq
    exact ⟨hstays, conn, hconn, hlive⟩
  · intro hheld
    have hreferred : ptr ∈ s.references := by
      have hsome : before.status ptr ≠ none := by simp [hstatus]
      obtain hset | ⟨task, hqueued, hcaptures⟩ := hbefore.polling hphase hheld hsome
      · exact mem_references.mpr (.inl (hs.stays ptr hmem hset))
      · have hpending := hs.queued ptr hmem _ hqueued
        exact mem_references.mpr (.inr (.inr (.inl ⟨task, List.mem_append_right _ hpending, hcaptures⟩)))
    rw [← Option.isSome_iff_exists, ← status_isSome, Option.isSome_iff_ne_none]
    exact hs.alive ptr hreferred

/-- Whatever is called while a batch is handled, every connection in it that has not been dispatched is served as it was
polled. -/
theorem batch_serves_polled {writeCompleteCallback_ : Bool} {before p after : ServerWorld} {ls ms : List ServerStep}
    {ready : List (Int × Events)} (hbefore : Run.exec step (init writeCompleteCallback_) ls = some before)
    (hpoll : before.step (.poll ready) = some p) (hafter : Run.exec step p ms = some after)
    (hms : ∀ l ∈ ms, ∀ ready, l ≠ .poll ready) : ∀ ptr ∈ after.batch, Serves before after ready ptr := by
  obtain ⟨hshares, hlisted⟩ := run_listed hbefore
  have hphase : before.phase = .polling := by
    obtain ⟨acted, hadvance, _⟩ := Option.map_eq_some_iff.mp hpoll
    cases advance_moves hadvance with
    | poll hphase hnodup hbatch => exact hphase
  have hundispatched : Undispatched before ready after :=
    Run.exec_invariant (fun _ _ _ hs hl hstep => hs.step hl hstep) (poll_undispatched hshares hlisted hpoll)
      (.of_labels hms) hafter
  exact fun ptr hmem => hundispatched.serves hshares hphase hmem

/-- The first of two polled connections is closed and destroyed, the second one is asked to close, and a new one gets
the descriptor of the first. -/
theorem batch_serves_after_reuse :
    ∃ before p after, Run.exec step (init false)
        [.poll [], .accept (.accepted 5), .accept (.accepted 6), .swap, .endTasks] = some before ∧
      before.step (.poll [(5, EPOLLIN), (6, EPOLLIN)]) = some p ∧
      Run.exec step p
        [.take, .dispatch (.filled []) (.accepted 0), .dispatch (.filled []) (.accepted 0),
          .dispatch (.filled []) (.accepted 0), .dispatch (.filled []) (.accepted 0), .call 1 .forceClose (.accepted 0),
          .accept (.accepted 5)] = some after ∧
      (before.connections_ = [0, 1] ∧ after.connections_ = [1, 2] ∧ after.batch = [1] ∧
        after.deaths = [(0, .kDisconnected)]) ∧
      Serves before after [(5, EPOLLIN), (6, EPOLLIN)] 1 := by
  obtain ⟨before, hbefore, hpoll⟩ := Run.Reaches.exists
    (by decide +kernel : Run.Reaches step (init false)
      [.poll [], .accept (.accepted 5), .accept (.accepted 6), .swap, .endTasks]
      (fun before => Run.Reaches step before [.poll [(5, EPOLLIN), (6, EPOLLIN)]]
        (fun p => Run.Reaches step p
          [.take, .dispatch (.filled []) (.accepted 0), .dispatch (.filled []) (.accepted 0),
            .dispatch (.filled []) (.accepted 0), .dispatch (.filled []) (.accepted 0),
            .call 1 .forceClose (.accepted 0), .accept (.accepted 5)]
          (fun after => before.connections_ = [0, 1] ∧ after.connections_ = [1, 2] ∧ after.batch = [1] ∧
            after.deaths = [(0, .kDisconnected)]))))
  obtain ⟨p, hpoll, hafter⟩ := hpoll.exists
  obtain ⟨after, hafter, hends⟩ := hafter.exists
  obtain ⟨p', hstep, hnil⟩ := Run.exec_cons_eq_some.mp hpoll
  cases hnil
  refine ⟨before, p, after, hbefore, hstep, hafter, hends, ?_⟩
  exact batch_serves_polled hbefore hstep hafter (by simp) 1 (by simp [hends])

end ServerWorld

end mudong.ev
