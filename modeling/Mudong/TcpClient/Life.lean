import Mudong.TcpClient.Moves
import Mudong.TcpConnection.World

namespace mudong.ev

/-- The member functions of a client that callbacks are bound to. -/
inductive ClientCallback where
  | retry
  | newConnection
  | closeConnection
  deriving DecidableEq, Repr

/-- A client in its loop, up to its destruction and beyond it. `conn` is the connection that the client has been given,
as long as it exists, and `closing` is the pointer to it that waits for the close that the destructor has asked for.
`invoked` lists the member functions of the destroyed client that are called. -/
structure ClientLife extends ClientWorld where
  conn : Option World
  destroyed : Bool
  closing : Option ClientConn
  invoked : List ClientCallback

/-- One step: one of the client in its loop, one of its connection, or the destruction of the client in the loop
thread. -/
inductive LifeLabel where
  | step (l : ClientLabel)
  | connection (l : Label)
  | destroy

/-- The steps that do not need the client. -/
def ClientLabel.outlives : ClientLabel → Bool
  | .loop _ => true
  | .poll _ => true
  | .destroyConnection => true
  | _ => false

namespace TcpClient

/-- `~Connector`, which closes the descriptor of an attempt that did not connect. -/
def destroyConnector (c : TcpClient) : TcpClient :=
  if c.connector_.connected_ then c
  else { c with interestList := c.interestList.close c.connector_.sockfd_
                descriptors := c.descriptors.erase c.connector_.sockfd_ }

/-- The connection that `~TcpClient` closes by force, which takes a task of the loop. -/
def forceClosed (c : TcpClient) : Option ClientConn :=
  match c.connection_ with
  | some conn => if conn.state_ = .kDisconnected then none else some { conn with state_ := .kDisconnecting }
  | none => none

/-- The connection that `~TcpClient` finds closed. -/
def foundClosed (c : TcpClient) : List ClientConn :=
  match c.connection_ with
  | some conn => if conn.state_ = .kDisconnected then [conn] else []
  | none => []

end TcpClient

namespace ClientLife

def init (time : Timestamp) (sockfd_ : Nat) : ClientLife :=
  { ClientWorld.init time sockfd_ with conn := none, destroyed := false, closing := none, invoked := [] }

/-- The connection as `newConnection` leaves it. In a task the loop has swapped out its queue already. -/
def newborn (phase : TimerPhase) : World :=
  let conn := World.established 0 0
  if phase = .running then { conn with phase := .running, doingPendingTasks_ := true } else conn

/-- The connection after a step of the client. -/
def connAfter (w : ClientLife) (world : ClientWorld) : ClientLabel → Option World
  | .destroyConnection => none
  | _ =>
    if w.client.newConnections.length < world.client.newConnections.length then some (newborn w.loop.phase) else w.conn

/-- The connection has been dispatched before the loop goes on to its tasks, and its tasks have been run before the
loop polls again. -/
def keepsPace (w : ClientLife) : ClientLabel → Bool
  | .loop .swap => w.conn.all (·.phase = .handling none)
  | .loop .endTasks => w.conn.all (·.phase = .polling)
  | _ => true

/-- The steps of the connection that the loop is at. -/
def admits (w : ClientLife) : Label → Bool
  | .poll _ | .dispatch _ _ => w.loop.phase = .handling
  | .swap | .task _ | .endTasks => w.loop.phase = .running
  | .call _ _ | .useInput _ | .setWriteCompleteCallback _ | .setHighWaterMarkCallback _ _ => w.loop.phase.inUserCode
  | .start _ _ | .advance _ | .pushOther => true

/-- `~TcpClient`. -/
def destroy (w : ClientLife) : ClientLife :=
  let c := w.client
  { loop := if c.retryTimer_ = nullptr then w.loop else ClientWorld.cancelTimer w.loop c.retryTimer_
    client := { c with connection_ := none, leaving := c.leaving ++ c.foundClosed }.destroyConnector
    conn := if c.connection_.isSome then w.conn.map fun conn => { conn with toConn := conn.forceClose } else w.conn
    destroyed := true
    closing := c.forceClosed
    invoked := w.invoked }

/-- The next reported event, when the client is destroyed. The connector calls back to the client if its descriptor
is one without an error. -/
def dispatch (w : ClientLife) (err : Nat) : ClientChannel × Events → ClientLife
  | (.connector attempt, revents) =>
    { w with client := { w.client with dangling := w.client.dangling ++ [attempt] }
             invoked := if Mask.has revents EPOLLOUT ∧ err = 0 then w.invoked ++ [.newConnection] else w.invoked }
  | (.connection _, _) => w

/-- What the loop still does on behalf of a destroyed client. -/
def callback (w : ClientLife) : ClientLabel → Option ClientLife
  | .retry _ _ =>
    match w.loop.phase with
    | .expiring _ (e :: _) =>
      if w.client.retryCallback = some e.second then
        (w.loop.step .fire).map fun loop =>
          { w with loop, invoked := if loop.phase.inUserCode then w.invoked ++ [.retry] else w.invoked }
      else none
    | _ => none
  | .event err =>
    match w.loop.phase, w.client.batch with
    | .handling, reported :: rest => some (dispatch { w with client := { w.client with batch := rest } } err reported)
    | _, _ => none
  | _ => none

/-- The connection has run `handleClose`, and invokes the callback that the client has bound to itself. -/
def closeCallback (w : ClientLife) : Option ClientLife :=
  if w.destroyed then
    some { w with client := w.closing.elim w.client w.client.handleClose
                  closing := none
                  invoked := w.invoked ++ [.closeConnection] }
  else (w.toClientWorld.step .closeConnection).map fun world => { w with toClientWorld := world }

/-- What a step does. -/
def act (w : ClientLife) : LifeLabel → Option ClientLife
  | .step .closeConnection => none
  | .step l =>
    if w.destroyed = false ∨ l.outlives then
      if w.keepsPace l then
        (w.toClientWorld.step l).map fun world => { w with toClientWorld := world, conn := w.connAfter world l }
      else none
    else w.callback l
  | .connection l =>
    if w.admits l then
      w.conn.bind fun conn => (conn.step l).bind fun conn' =>
        if conn'.closes = conn.closes then some { w with conn := some conn' }
        else closeCallback { w with conn := some conn' }
    else none
  | .destroy =>
    if w.loop.phase.inUserCode ∧ w.destroyed = false ∧ w.conn.all (·.phase ≠ .polling) then some w.destroy else none

/-- A run ends with a call into the destroyed client, as it does with an event of a destroyed connector. -/
def step (w : ClientLife) (l : LifeLabel) : Option ClientLife :=
  if w.client.dangling = [] ∧ w.invoked = [] then w.act l else none

/-- Everything a step can be. -/
inductive Moves (w : ClientLife) : LifeLabel → ClientLife → Prop where
  | lives {l : ClientLabel} {world : ClientWorld} (hlives : w.destroyed = false)
      (hstep : w.toClientWorld.step l = some world) :
      Moves w (.step l) { w with toClientWorld := world, conn := w.connAfter world l }
  | destroy (huser : w.loop.phase.inUserCode = true) (hlives : w.destroyed = false) : Moves w .destroy w.destroy
  | loop {l : TimerLabel} {loop : TimerWorld} (hdestroyed : w.destroyed = true) (hpermits : w.permits l = true)
      (hloop : w.loop.step l = some loop) : Moves w (.step (.loop l)) { w with loop }
  | fires {sockfd : Nat} {result : ConnectResult} {loop : TimerWorld} {now : Timestamp} {e : Entry}
      {expired : List Entry} (hdestroyed : w.destroyed = true) (hphase : w.loop.phase = .expiring now (e :: expired))
      (hcallback : w.client.retryCallback = some e.second) (hloop : w.loop.step .fire = some loop) :
      Moves w (.step (.retry sockfd result))
        { w with loop, invoked := if (w.loop.object e.second).canceled_ then w.invoked else w.invoked ++ [.retry] }
  | poll {ready : List (Int × Events)} {batch : List (ClientChannel × Events)} {loop : TimerWorld}
      (hdestroyed : w.destroyed = true) (hbatch : ready.mapM w.client.report = some batch)
      (hloop : w.loop.step .poll = some loop) :
      Moves w (.step (.poll ready)) { w with loop, client := { w.client with batch } }
  | event {err : Nat} {reported : ClientChannel × Events} {rest : List (ClientChannel × Events)}
      (hdestroyed : w.destroyed = true) (hbatch : w.client.batch = reported :: rest) :
      Moves w (.step (.event err)) (dispatch { w with client := { w.client with batch := rest } } err reported)
  | destroys {conn : ClientConn} {rest : List ClientConn} (hdestroyed : w.destroyed = true)
      (hleaving : w.client.leaving = conn :: rest) :
      Moves w (.step .destroyConnection)
        { w with client := { w.client.destroyConnection conn with leaving := rest }, conn := none }
  | goes {l : Label} {conn conn' : World} (hconn : w.conn = some conn) (hstep : conn.step l = some conn')
      (hcloses : conn'.closes = conn.closes) : Moves w (.connection l) { w with conn := some conn' }
  | closes {l : Label} {conn conn' : World} {world : ClientWorld} (hlives : w.destroyed = false)
      (hconn : w.conn = some conn) (hstep : conn.step l = some conn')
      (hworld : w.toClientWorld.step .closeConnection = some world) :
      Moves w (.connection l) { w with toClientWorld := world, conn := some conn' }
  | calls {l : Label} {conn conn' : World} (hdestroyed : w.destroyed = true) (hconn : w.conn = some conn)
      (hstep : conn.step l = some conn') (hcloses : conn'.closes ≠ conn.closes) :
      Moves w (.connection l)
        { w with client := w.closing.elim w.client w.client.handleClose
                 conn := some conn'
                 closing := none
                 invoked := w.invoked ++ [.closeConnection] }

private theorem callback_moves {w w' : ClientLife} {l : ClientLabel} (hdestroyed : w.destroyed = true)
    (hstep : w.callback l = some w') : w.Moves (.step l) w' := by
  cases l with
  | retry sockfd result =>
    simp only [callback] at hstep
    split at hstep
    · rename_i now e expired hphase
      simp only [Option.ite_none_right_eq_some, Option.map_eq_some_iff] at hstep
      obtain ⟨hcallback, loop, hloop, rfl⟩ := hstep
      rw [ClientWorld.fire_phase hphase hloop]
      have hmoves : w.Moves (.step (.retry sockfd result)) _ := .fires hdestroyed hphase hcallback hloop
      cases hcanceled : (w.loop.object e.second).canceled_ <;> simpa [hcanceled, TimerPhase.inUserCode] using hmoves
    · cases hstep
  | event err =>
    simp only [callback] at hstep
    split at hstep
    · rename_i reported rest hphase hbatch
      cases hstep
      exact .event hdestroyed hbatch
    · cases hstep
  | _ => cases hstep

/-- A step of the client in its loop, when the client exists or is not needed. -/
private theorem outlives_moves {w : ClientLife} {l : ClientLabel} {world : ClientWorld}
    (hgoes : w.destroyed = false ∨ l.outlives = true) (hworld : w.toClientWorld.step l = some world) :
    w.Moves (.step l) { w with toClientWorld := world, conn := w.connAfter world l } := by
  cases hdestroyed : w.destroyed with
  | false => simpa only [hdestroyed] using Moves.lives hdestroyed hworld
  | true =>
    have houtlives := hgoes.resolve_left (by simp [hdestroyed])
    cases ClientWorld.step_moves hworld with
    | loop hpermits hloop =>
      simpa only [hdestroyed, connAfter, lt_irrefl, if_false] using Moves.loop hdestroyed hpermits hloop
    | poll hbatch hnodup hloop =>
      simpa only [hdestroyed, connAfter, lt_irrefl, if_false] using Moves.poll hdestroyed hbatch hloop
    | destroys hleaving => simpa only [hdestroyed, connAfter] using Moves.destroys hdestroyed hleaving
    | _ => cases houtlives

/-- A step of the connection. -/
private theorem connection_moves {w w' : ClientLife} {l : Label} {conn conn' : World} (hconn : w.conn = some conn)
    (hstep : conn.step l = some conn') (hcloses : conn'.closes ≠ conn.closes)
    (hcallback : closeCallback { w with conn := some conn' } = some w') : w.Moves (.connection l) w' := by
  unfold closeCallback at hcallback
  split at hcallback
  · rename_i hdestroyed
    cases hcallback
    exact .calls hdestroyed hconn hstep hcloses
  · rename_i hlives
    simp only [Option.map_eq_some_iff] at hcallback
    obtain ⟨world, hworld, rfl⟩ := hcallback
    exact .closes (by simpa using hlives) hconn hstep hworld

theorem step_moves {w w' : ClientLife} {l : LifeLabel} (hstep : w.step l = some w') : w.Moves l w' := by
  simp only [step, Option.ite_none_right_eq_some] at hstep
  obtain ⟨_, hstep⟩ := hstep
  cases l with
  | destroy =>
    simp only [act, Option.ite_none_right_eq_some, Option.some.injEq] at hstep
    obtain ⟨⟨huser, hlives, _⟩, rfl⟩ := hstep
    exact .destroy huser hlives
  | connection l =>
    simp only [act, Option.ite_none_right_eq_some, Option.bind_eq_some_iff] at hstep
    obtain ⟨_, conn, hconn, conn', hstep, hrest⟩ := hstep
    split at hrest
    · rename_i hcloses
      cases hrest
      exact .goes hconn hstep hcloses
    · rename_i hcloses
      exact connection_moves hconn hstep hcloses hrest
  | step l =>
    by_cases hclose : l = .closeConnection
    · subst hclose
      cases hstep
    · rw [act] at hstep
      · split at hstep
        · rename_i hgoes
          simp only [Option.ite_none_right_eq_some, Option.map_eq_some_iff] at hstep
          obtain ⟨_, world, hworld, rfl⟩ := hstep
          exact outlives_moves hgoes hworld
        · rename_i hgoes
          exact callback_moves (by simpa using fun h => hgoes (.inl h)) hstep
      · exact hclose

end ClientLife

end mudong.ev
