import Mudong.TcpServerSingle.Touches

namespace mudong.ev

namespace ServerWorld

variable {s s' : ServerWorld} {l : ServerStep} {ptr : Nat}

/-- The tasks whose closures exist. -/
def closures (s : ServerWorld) : List (Nat × Task) := s.tasks ++ s.executed ++ s.pendingTasks_

theorem mem_references : ptr ∈ s.references ↔ ptr ∈ s.connections_ ∨ ptr ∈ s.phase.guard ∨
    (∃ task, (ptr, task) ∈ s.closures ∧ task.captures = true) ∨ ∃ thread, (thread, ptr) ∈ s.held := by
  simp only [references, closures, List.mem_append, List.mem_map, List.mem_filter, Prod.exists, exists_and_right,
    exists_eq_right, or_assoc]

/-- What has survived is referred to, and is as it was. -/
theorem reap_object {conn : SharedConn} :
    s.reap.conns.object ptr = some conn ↔ ptr ∈ s.references ∧ s.conns.object ptr = some conn :=
  Shared.sweep_eq_some

theorem reap_status {status : ConnectState × Int} :
    s.reap.status ptr = some status ↔ ptr ∈ s.references ∧ s.status ptr = some status := by
  simp only [ServerWorld.status, Option.map_eq_some_iff, reap_object, and_assoc, exists_and_left]

/-- What the set of the server and the connections that exist have in common. -/
structure Members (s : ServerWorld) : Prop where
  counted : s.conns.Counted
  nodup : s.connections_.Nodup
  member : ∀ ptr ∈ s.connections_, ∃ state fd, s.status ptr = some (state, fd) ∧ state ≠ .kDisconnected
  unique : ∀ ptr ptr' state state' fd, s.status ptr = some (state, fd) → s.status ptr' = some (state', fd) → 0 ≤ fd →
    ptr = ptr'

theorem counted_iff : s.conns.Counted ↔ ∀ ptr, s.status ptr ≠ none → ptr < s.conns.made := by
  constructor
  · intro h ptr hsome
    obtain ⟨conn, hconn⟩ := Option.ne_none_iff_exists'.mp (fun hnone => hsome (Option.map_eq_none_iff.mpr hnone))
    exact h ptr conn hconn
  · intro h ptr conn hconn
    apply h ptr
    rw [status_of_object hconn]
    exact Option.some_ne_none _

/-- The number of the next connection is not in use. -/
theorem Members.status_made (h : s.Members) : s.status s.conns.made = none := by
  rw [status, h.counted.object_made]
  rfl

/-- A step destroys nothing by itself, and a connection keeps its descriptor. -/
theorem Touches.keeps (h : s.Touches l s') (hs : s.Members) {state : ConnectState} {fd : Int}
    (hstatus : s.status ptr = some (state, fd)) : ∃ state', s'.status ptr = some (state', fd) := by
  have hupdate {i : Nat} {fd' : Int} {next : ConnectState}
      (hafter : s'.status = Function.update s.status i (some (next, fd'))) (hi : ptr = i → fd' = fd) : ∃ state', s'.status ptr = some (state', fd) := by
    by_cases hptr : ptr = i
    · rw [hafter, hptr, Function.update_self, hi hptr]
      exact ⟨next, rfl⟩
    · rw [hafter, Function.update_of_ne hptr]
      exact ⟨state, hstatus⟩
  cases h with
  | same hmade hafter hset =>
    rw [hafter]
    exact ⟨state, hstatus⟩
  | makes fd' hfresh hmade hafter hset =>
    refine hupdate hafter (fun hptr => ?_)
    rw [hptr, hs.status_made] at hstatus
    cases hstatus
  | changes ptr' old new fd' hold hstate hmade hafter hset =>
    refine hupdate hafter (fun hptr => ?_)
    rw [hptr, hold] at hstatus
    cases hstatus
    rfl
  | closes ptr' old fd' hold hmem hby hmade hafter hset =>
    refine hupdate hafter (fun hptr => ?_)
    rw [hptr, hold] at hstatus
    cases hstatus
    rfl
  | clears hl hphase hmade hafter hset =>
    rw [hafter]
    exact ⟨state, hstatus⟩

/-- Every connection after a step was there before, or is the new one, with a descriptor that was not in use. -/
theorem Touches.comes (h : s.Touches l s') {state : ConnectState} {fd : Int}
    (hstatus : s'.status ptr = some (state, fd)) :
    (∃ state', s.status ptr = some (state', fd)) ∨
      ptr = s.conns.made ∧ ptr < s'.conns.made ∧ ∀ ptr state, s.status ptr = some (state, fd) → fd < 0 := by
  have hupdate {i : Nat} {fd' : Int} {old new : ConnectState} (hold : s.status i = some (old, fd'))
      (hafter : s'.status = Function.update s.status i (some (new, fd'))) :
      ∃ state', s.status ptr = some (state', fd) := by
    by_cases hptr : ptr = i
    · rw [hafter, hptr, Function.update_self] at hstatus
      cases hstatus
      rw [hptr]
      exact ⟨old, hold⟩
    · rw [hafter, Function.update_of_ne hptr] at hstatus
      exact ⟨state, hstatus⟩
  cases h with
  | same hmade hafter hset =>
    rw [hafter] at hstatus
    exact .inl ⟨state, hstatus⟩
  | makes fd' hfresh hmade hafter hset =>
    by_cases hptr : ptr = s.conns.made
    · rw [hafter, hptr, Function.update_self] at hstatus
      cases hstatus
      exact .inr ⟨hptr, by omega, hfresh⟩
    · rw [hafter, Function.update_of_ne hptr] at hstatus
      exact .inl ⟨state, hstatus⟩
  | changes ptr' old new fd' hold hstate hmade hafter hset => exact .inl (hupdate hold hafter)
  | closes ptr' old fd' hold hmem hby hmade hafter hset => exact .inl (hupdate hold hafter)
  | clears hl hphase hmade hafter hset =>
    rw [hafter] at hstatus
    exact .inl ⟨state, hstatus⟩

theorem Touches.made_le (h : s.Touches l s') : s.conns.made ≤ s'.conns.made := by
  cases h <;> omega

theorem Touches.counted (h : s.Touches l s') (hs : s.Members) : s'.conns.Counted := by
  rw [counted_iff]
  intro ptr hsome
  obtain ⟨⟨state, fd⟩, hstatus⟩ := Option.ne_none_iff_exists'.mp hsome
  obtain ⟨state', hbefore⟩ | ⟨_, hlt, _⟩ := h.comes hstatus
  · have hlt := counted_iff.mp hs.counted ptr (by simp [hbefore])
    have hle := h.made_le
    omega
  · exact hlt

theorem Touches.nodup (h : s.Touches l s') (hs : s.Members) : s'.connections_.Nodup := by
  cases h with
  | same hmade hafter hset =>
    rw [hset]
    exact hs.nodup
  | makes fd hfresh hmade hafter hset =>
    have hnew : s.conns.made ∉ s.connections_ := by
      intro hmem
      obtain ⟨state, fd, hstatus, _⟩ := hs.member _ hmem
      rw [hs.status_made] at hstatus
      cases hstatus
    rw [hset, ← List.concat_eq_append, List.nodup_concat]
    exact ⟨hnew, hs.nodup⟩
  | changes ptr old new fd hold hstate hmade hafter hset =>
    rw [hset]
    exact hs.nodup
  | closes ptr old fd hold hmem hby hmade hafter hset =>
    rw [hset]
    exact hs.nodup.erase ptr
  | clears hl hphase hmade hafter hset =>
    rw [hset]
    exact List.nodup_nil

/-- A connection is disconnected when it leaves the set and not before. -/
theorem Touches.member (h : s.Touches l s') (hs : s.Members) (hmem : ptr ∈ s'.connections_) :
    ∃ state fd, s'.status ptr = some (state, fd) ∧ state ≠ .kDisconnected := by
  cases h with
  | same hmade hafter hset =>
    rw [hset] at hmem
    rw [hafter]
    exact hs.member ptr hmem
  | makes fd hfresh hmade hafter hset =>
    rw [hafter]
    by_cases hptr : ptr = s.conns.made
    · rw [hptr, Function.update_self]
      exact ⟨_, _, rfl, by decide⟩
    · rw [Function.update_of_ne hptr]
      rw [hset, List.mem_append, List.mem_singleton] at hmem
      exact hs.member ptr (hmem.resolve_right hptr)
  | changes ptr' old new fd hold hstate hmade hafter hset =>
    rw [hset] at hmem
    rw [hafter]
    by_cases hptr : ptr = ptr'
    · obtain ⟨state, fd', hstatus, hlive⟩ := hs.member ptr hmem
      rw [hptr, hold] at hstatus
      cases hstatus
      rw [hptr, Function.update_self]
      refine ⟨new, fd, rfl, ?_⟩
      obtain rfl | ⟨rfl, _⟩ := hstate
      · exact hlive
      · decide
    · rw [Function.update_of_ne hptr]
      exact hs.member ptr hmem
  | closes ptr' old fd hold hmem' hby hmade hafter hset =>
    rw [hset, hs.nodup.mem_erase_iff] at hmem
    rw [hafter, Function.update_of_ne hmem.1]
    exact hs.member ptr hmem.2
  | clears hl hphase hmade hafter hset =>
    rw [hset] at hmem
    cases hmem

theorem Touches.unique (h : s.Touches l s') (hs : s.Members) {ptr' : Nat} {state state' : ConnectState} {fd : Int}
    (hstatus : s'.status ptr = some (state, fd)) (hstatus' : s'.status ptr' = some (state', fd)) (hfd : 0 ≤ fd) :
    ptr = ptr' := by
  obtain ⟨old, hold⟩ | ⟨hptr, _, hfresh⟩ := h.comes hstatus
  · obtain ⟨old', hold'⟩ | ⟨_, _, hfresh⟩ := h.comes hstatus'
    · exact hs.unique ptr ptr' old old' fd hold hold' hfd
    · exact absurd (hfresh ptr old hold) (not_lt.mpr hfd)
  · obtain ⟨old', hold'⟩ | ⟨hptr', _, _⟩ := h.comes hstatus'
    · exact absurd (hfresh ptr' old' hold') (not_lt.mpr hfd)
    · rw [hptr, hptr']

theorem Touches.members (h : s.Touches l s') (hs : s.Members) : s'.Members :=
  ⟨h.counted hs, h.nodup hs, fun _ hmem => h.member hs hmem, fun _ _ _ _ _ => h.unique hs⟩

/-- The members of the set are referred to, so that none of them is destroyed. -/
theorem Members.reap (h : s.Members) : s.reap.Members := by
  refine ⟨h.counted.sweep _, h.nodup, ?_, ?_⟩
  · intro ptr hmem
    obtain ⟨state, fd, hstatus, hlive⟩ := h.member ptr hmem
    exact ⟨state, fd, reap_status.mpr ⟨mem_references.mpr (.inl hmem), hstatus⟩, hlive⟩
  · intro ptr ptr' state state' fd hstatus hstatus'
    exact h.unique ptr ptr' state state' fd (reap_status.mp hstatus).2 (reap_status.mp hstatus').2

theorem init_members (writeCompleteCallback_ : Bool) : (init writeCompleteCallback_).Members := by
  refine ⟨Shared.empty_counted, List.nodup_nil, ?_, ?_⟩
  · intro ptr hmem
    cases hmem
  · intro ptr ptr' state state' fd hstatus
    cases hstatus

end ServerWorld

end mudong.ev
