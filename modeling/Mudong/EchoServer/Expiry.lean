import Mudong.EchoServer.Stream

namespace mudong.ev.EchoServer

/-- Twice the timeout after the last activity is a time that the clock can reach. -/
def InRange (e : EchoServer) : Prop := e.active.toInt + 2 * e.timeout_.toInt < 2 ^ 63

/-- A connected connection has an expiry, between one and two timeouts after its last activity. -/
structure Expires (e : EchoServer) : Prop where
  timeout : 0 ≤ e.timeout_.toInt ∧ 2 * e.timeout_.toInt < 2 ^ 63
  up : e.state_ = .kConnected → e.connections_ ≠ none
  expiry : ∀ expiry, e.connections_ = some expiry → e.InRange →
    e.active.toInt + e.timeout_.toInt ≤ expiry.toInt ∧ expiry.toInt ≤ e.active.toInt + 2 * e.timeout_.toInt

/-- A step that leaves the entry alone and does not bring the connection up. -/
theorem Expires.move {e e' : EchoServer} (h : e.Expires)
    (hsame : (e'.timeout_, e'.connections_, e'.active) = (e.timeout_, e.connections_, e.active))
    (hstate : e'.state_ = .kConnected → e.state_ = .kConnected) : e'.Expires := by
  simp only [Prod.mk.injEq] at hsame
  obtain ⟨htimeout, hentry, hactive⟩ := hsame
  refine ⟨?_, fun hup => ?_, ?_⟩
  · rw [htimeout]
    exact h.timeout
  · rw [hentry]
    exact h.up (hstate hup)
  · rw [InRange, htimeout, hentry, hactive]
    exact h.expiry

theorem Expires.erase {e e' : EchoServer} (h : e.Expires) (htimeout : e'.timeout_ = e.timeout_)
    (hentry : e'.connections_ = none) (hstate : e'.state_ ≠ .kConnected) : e'.Expires := by
  refine ⟨?_, fun hup => (hstate hup).elim, fun expiry hexpiry => ?_⟩
  · rw [htimeout]
    exact h.timeout
  · rw [hentry] at hexpiry
    cases hexpiry

theorem Expires.renew {e e' : EchoServer} (h : e.Expires) (htimeout : e'.timeout_ = e.timeout_)
    (hentry : e'.connections_ = some (e'.active + e.timeout_) ∨ e'.connections_ = some (e'.active + 2 * e.timeout_)) :
    e'.Expires := by
  obtain ⟨hmin, hmax⟩ := h.timeout
  have hdouble := Int64.toInt_two_mul hmin hmax
  refine ⟨?_, fun _ hnone => ?_, fun expiry hexpiry hrange => ?_⟩
  · rw [htimeout]
    exact h.timeout
  · obtain hentry | hentry := hentry <;> simp [hnone] at hentry
  · rw [InRange, htimeout] at hrange
    rw [htimeout]
    obtain hentry | hentry := hentry
    · rw [hentry, Option.some.injEq] at hexpiry
      rw [← hexpiry, Int64.toInt_add_of_nonneg hmin (by omega)]
      omega
    · rw [hentry, Option.some.injEq] at hexpiry
      rw [← hexpiry, Int64.toInt_add_of_nonneg (by omega) (by omega), hdouble]
      omega

theorem forceClose_state_ (c : Conn) : c.forceClose.state_ ≠ .kConnected := by
  by_cases hstate : c.state_ = .kDisconnected
  · simp [Conn.forceClose, hstate]
  · simp [Conn.forceClose, hstate, Conn.stateAtomicGetAndSet, Conn.queueInLoop]

theorem Expires.step {e e' : EchoServer} {l : EchoLabel} (h : e.Expires) (hstep : e.step l = some e') : e'.Expires := by
  cases step_moves hstep with
  | @poll revents w hw =>
    cases World.step_moves hw with
    | pollOther _ => exact h.move rfl (fun h => h)
    | poll _ _ => exact h.move rfl (fun h => h)
  | message _ _ _ => exact h.renew rfl (Or.inl rfl)
  | @close read write _ _ w hw hcloses _ =>
    refine h.erase rfl rfl ?_
    cases World.step_moves hw with
    | @dispatch _ _ stage _ _ =>
      have hdown := (Conn.runStage_closesIf e.toConn read write stage).state_of_lt hcloses
      simp [hdown]
  | @dispatch read write _ _ w hw _ hcloses =>
    refine h.move rfl fun hup => ?_
    cases World.step_moves hw with
    | @dispatch _ _ stage _ _ =>
      exact ((Conn.runStage_closesIf e.toConn read write stage).state_of_le hcloses).symm.trans hup
  | swap hw =>
    cases World.step_moves hw with
    | swap _ => exact h.move rfl (fun h => h)
  | completed _ _ => exact h.move rfl (fun h => h)
  | resume _ _ => exact h.renew rfl (Or.inl rfl)
  | stop _ => exact h.renew rfl (Or.inr rfl)
  | @abort read write _ _ w hw hcloses _ =>
    refine h.move rfl fun hup => ?_
    cases World.step_moves hw with
    | @dispatch _ _ stage _ _ =>
      have hdown := (Conn.runStage_closesIf e.toConn read write stage).state_of_lt hcloses
      cases hup.symm.trans hdown
  | @closeTask write task _ _ _ hcloses _ =>
    have hdown := (Conn.runTask_closesIf e.toConn write task).state_of_lt hcloses
    exact h.erase rfl rfl (by simp [hdown])
  | @abortTask write task _ _ _ hcloses _ =>
    have hdown := (Conn.runTask_closesIf e.toConn write task).state_of_lt hcloses
    refine h.move rfl fun hup => ?_
    cases hup.symm.trans hdown
  | @task write task _ _ _ hcloses =>
    exact h.move rfl fun hup => ((Conn.runTask_closesIf e.toConn write task).state_of_le hcloses).symm.trans hup
  | endTasks hw =>
    cases World.step_moves hw with
    | endTasks _ _ => exact h.move rfl (fun h => h)
  | tick => exact h.move rfl (fun h => h)
  | expire _ _ => exact h.erase rfl rfl (forceClose_state_ e.toConn)
  | keep _ => exact h
  | pushOther hw =>
    cases World.step_moves hw with
    | pushOther => exact h.move rfl (fun h => h)

section

variable {timeout_ : Nanoseconds} {tid others wakeups : Nat} {now : Timestamp} {e e' : EchoServer} {ls : List EchoLabel}

theorem init_expires (htimeout : 0 ≤ timeout_.toInt ∧ 2 * timeout_.toInt < 2 ^ 63) (tid : Nat) (now : Timestamp)
    (others wakeups : Nat) : (init timeout_ tid now others wakeups).Expires := by
  refine ⟨htimeout, fun _ => by simp [init], fun expiry hexpiry hrange => ?_⟩
  obtain rfl : now + timeout_ = expiry := by simpa [init] using hexpiry
  obtain ⟨hmin, hmax⟩ := htimeout
  change now.toInt + 2 * timeout_.toInt < 2 ^ 63 at hrange
  change now.toInt + timeout_.toInt ≤ (now + timeout_).toInt ∧ (now + timeout_).toInt ≤ now.toInt + 2 * timeout_.toInt
  rw [Int64.toInt_add_of_nonneg hmin (by omega)]
  omega

/-- The timer closes idle connections and no others. It closes a connected one only when a whole timeout has passed
since the last message, stop or start of its reading, and it leaves none connected for which two have passed. The
times are those that the clock can reach. -/
theorem onTimeout_closes_idle (htimeout : 0 ≤ timeout_.toInt ∧ 2 * timeout_.toInt < 2 ^ 63)
    (hrun : Run.exec step (init timeout_ tid now others wakeups) ls = some e) (hrange : e.InRange)
    (hup : e.state_ = .kConnected) (hstep : e.step .timeout = some e') :
    (e'.state_ ≠ .kConnected → e.active.toInt + e.timeout_.toInt ≤ e.now.toInt) ∧
      (e.active.toInt + 2 * e.timeout_.toInt ≤ e.now.toInt →
        e'.state_ = .kDisconnecting ∧ .forceCloseInLoop ∈ e'.pendingTasks_) := by
  have h : e.Expires :=
    Run.exec_preserves (fun _ _ _ h hstep => h.step hstep) (init_expires htimeout tid now others wakeups) hrun
  cases step_moves hstep with
  | @expire expiry hexpiry hpast =>
    have hpast := Int64.le_iff_toInt_le.mp hpast
    refine ⟨fun _ => (h.expiry expiry hexpiry hrange).1.trans hpast, fun _ => ?_⟩
    simp [Conn.forceClose, hup, Conn.stateAtomicGetAndSet, Conn.queueInLoop]
  | keep hkeep =>
    refine ⟨fun hdown => (hdown hup).elim, fun hlate => ?_⟩
    obtain ⟨expiry, hexpiry⟩ := Option.ne_none_iff_exists'.mp (h.up hup)
    have hbefore := Int64.lt_iff_toInt_lt.mp (hkeep expiry hexpiry)
    exact absurd (hlate.trans_lt hbefore) (not_lt.mpr (h.expiry expiry hexpiry hrange).2)

/-- A connection that nothing was read from. -/
theorem onTimeout_closes_idle_silent : ∃ e e' : EchoServer,
    Run.exec step (init 20 7 0 0 0) [.swap, .endTasks, .tick 45, .poll none] = some e ∧ e.state_ = .kConnected ∧
      e.step .timeout = some e' ∧ e'.state_ = .kDisconnecting ∧ .forceCloseInLoop ∈ e'.pendingTasks_ := by
  obtain ⟨e, hrun, hup, ⟨hrange, hnow⟩, hsome⟩ := Run.Reaches.exists
    (show Run.Reaches step (init 20 7 0 0 0) [.swap, .endTasks, .tick 45, .poll none] (fun e => e.state_ = .kConnected ∧
      (e.active.toInt + 2 * e.timeout_.toInt < 2 ^ 63 ∧ e.active.toInt + 2 * e.timeout_.toInt ≤ e.now.toInt) ∧
      (e.step .timeout).isSome = true) by decide +kernel)
  obtain ⟨e', hstep⟩ := Option.isSome_iff_exists.mp hsome
  exact ⟨e, e', hrun, hup, hstep, (onTimeout_closes_idle (by decide) hrun hrange hup hstep).2 hnow⟩

end

end mudong.ev.EchoServer
