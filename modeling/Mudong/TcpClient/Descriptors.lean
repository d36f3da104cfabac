import Mudong.TcpClient.Life
import Mudong.TcpClient.Retry

namespace mudong.ev

/-- The descriptor that a connection owns, with the attempt it was made for. -/
def ClientConn.owns (conn : ClientConn) : Nat × Int := (conn.attempt, conn.sockfd_)

/-- A connector owns its descriptor until it is connected. -/
def Connector.owns (connector : Connector) : List (Nat × Int) :=
  if connector.connected_ then [] else [(connector.attempt, connector.sockfd_)]

namespace ClientLife

/-- The descriptors that a connector or a connection owns. -/
def owners (w : ClientLife) : List (Nat × Int) :=
  (if w.destroyed then [] else w.client.connector_.owns) ++
    (w.client.connection_.toList ++ (w.closing.toList ++ w.client.leaving)).map ClientConn.owns

/-- The descriptors that a step closes: `retry` destroys the old connector, `~TcpClient` the current one, and
`~TcpConnection` closes the descriptor of its connection. -/
def closes (w : ClientLife) : LifeLabel → List (Nat × Int)
  | .step (.retry sockfd result) =>
    if w.destroyed ∨ w.connects (.retry sockfd result) = [] then [] else w.client.connector_.owns
  | .step .destroyConnection => w.client.leaving.head?.toList.map ClientConn.owns
  | .destroy => w.client.connector_.owns
  | _ => []

/-- Everything that a step can do to the descriptors: nothing, though the owner may change; make a new one and close
the one it replaces; or close one. -/
inductive Transfers (w w' : ClientLife) (closed : List (Nat × Int)) : Prop where
  | same (howners : w'.owners.Perm w.owners) (hattempt : w'.client.connector_.attempt = w.client.connector_.attempt)
    (hdescriptors : w'.client.descriptors = w.client.descriptors) (hclosed : closed = [])
  | renew (old : Nat × Int) (sockfd : Int) (rest : List (Nat × Int)) (hold : w.owners.Perm (old :: rest))
    (hfresh : sockfd ∉ w.client.descriptors)
    (hnew : w'.owners.Perm ((w.client.connector_.attempt + 1, sockfd) :: rest))
    (hattempt : w'.client.connector_.attempt = w.client.connector_.attempt + 1)
    (hdescriptors : w'.client.descriptors = (w.client.descriptors ++ [sockfd]).erase old.2) (hclosed : closed = [old])
  | release (old : Nat × Int) (howners : w.owners.Perm (old :: w'.owners))
    (hattempt : w'.client.connector_.attempt = w.client.connector_.attempt)
    (hdescriptors : w'.client.descriptors = w.client.descriptors.erase old.2) (hclosed : closed = [old])

/-- Every descriptor that was made is owned once or has been closed once, and those that are owned are the open
ones. -/
structure Accounted (closed : List (Nat × Int)) (w : ClientLife) : Prop where
  made : ((w.owners ++ closed).map Prod.fst).Perm (List.range (w.client.connector_.attempt + 1))
  opened : (w.owners.map Prod.snd).Perm w.client.descriptors
  nodup : w.client.descriptors.Nodup

variable {w w' : ClientLife}

theorem Transfers.accounted {closed new : List (Nat × Int)} (h : w.Transfers w' new) (hinv : Accounted closed w) :
    Accounted (closed ++ new) w' := by
  cases h with
  | same howners hattempt hdescriptors hclosed =>
    refine ⟨?_, ?_, ?_⟩
    · rw [hattempt, hclosed, List.append_nil]
      exact ((howners.append_right closed).map Prod.fst).trans hinv.made
    · rw [hdescriptors]
      exact (howners.map Prod.snd).trans hinv.opened
    · rw [hdescriptors]
      exact hinv.nodup
  | renew old sockfd rest hold hfresh hnew hattempt hdescriptors hclosed =>
    have hopen : (old.2 :: rest.map Prod.snd).Perm w.client.descriptors := (hold.map Prod.snd).symm.trans hinv.opened
    have hmem : old.2 ∈ w.client.descriptors := hopen.mem_iff.mp List.mem_cons_self
    have herase : (w.client.descriptors ++ [sockfd]).erase old.2 = w.client.descriptors.erase old.2 ++ [sockfd] :=
      List.erase_append_left _ hmem
    refine ⟨?_, ?_, ?_⟩
    · rw [hattempt, hclosed, List.range_succ]
      have hmade : ((old :: rest ++ closed).map Prod.fst).Perm (List.range (w.client.connector_.attempt + 1)) :=
        ((hold.symm.append_right closed).map Prod.fst).trans hinv.made
      refine ((hnew.append_right (closed ++ [old])).map Prod.fst).trans ?_
      rw [List.cons_append, List.map_cons, ← List.append_assoc, List.map_append]
      refine (List.perm_append_singleton _ _).symm.trans (List.Perm.append_right _ ?_)
      exact (List.perm_append_singleton old.1 ((rest ++ closed).map Prod.fst)).trans hmade
    · rw [hdescriptors, herase]
      refine (hnew.map Prod.snd).trans ((List.perm_append_singleton _ _).symm.trans (List.Perm.append_right _ ?_))
      exact List.cons_perm_iff_perm_erase.mp hopen |>.2
    · rw [hdescriptors, herase, List.nodup_append]
      refine ⟨hinv.nodup.erase old.2, List.nodup_singleton sockfd, fun a ha b hb => ?_⟩
      rw [List.mem_singleton.mp hb]
      rintro rfl
      exact hfresh (List.mem_of_mem_erase ha)
  | release old howners hattempt hdescriptors hclosed =>
    refine ⟨?_, ?_, ?_⟩
    · rw [hattempt, hclosed]
      refine List.Perm.trans ?_ (((howners.symm.append_right closed).map Prod.fst).trans hinv.made)
      rw [← List.append_assoc]
      exact (List.perm_append_singleton old (w'.owners ++ closed)).map Prod.fst
    · rw [hdescriptors]
      have hopen : (old.2 :: w'.owners.map Prod.snd).Perm w.client.descriptors :=
        (howners.map Prod.snd).symm.trans hinv.opened
      exact (List.cons_perm_iff_perm_erase.mp hopen).2
    · rw [hdescriptors]
      exact hinv.nodup.erase old.2

/-- What the owners of a client depend on. -/
theorem Transfers.of_same (hconnector : w'.client.connector_.owns = w.client.connector_.owns)
    (hsame : (w'.destroyed, w'.closing, w'.client.connection_, w'.client.leaving) =
      (w.destroyed, w.closing, w.client.connection_, w.client.leaving))
    (hattempt : w'.client.connector_.attempt = w.client.connector_.attempt)
    (hdescriptors : w'.client.descriptors = w.client.descriptors) : w.Transfers w' [] := by
  simp only [Prod.mk.injEq] at hsame
  obtain ⟨hdestroyed, hclosing, hconnection, hleaving⟩ := hsame
  refine .same ?_ hattempt hdescriptors rfl
  rw [owners, owners, hconnector, hdestroyed, hclosing, hconnection, hleaving]

/-- What the connection does by itself is no matter of its descriptor. -/
theorem Transfers.withConn {closed : List (Nat × Int)} (h : w.Transfers w' closed) (conn : Option World) :
    w.Transfers { w' with conn } closed := by
  cases h with
  | same howners hattempt hdescriptors hclosed => exact .same howners hattempt hdescriptors hclosed
  | renew old sockfd rest hold hfresh hnew hattempt hdescriptors hclosed =>
    exact .renew old sockfd rest hold hfresh hnew hattempt hdescriptors hclosed
  | release old howners hattempt hdescriptors hclosed => exact .release old howners hattempt hdescriptors hclosed

/-- The connection takes over the descriptor of its attempt. -/
theorem handleWrite_owns (w : ClientWorld) :
    (w.handleWrite 0).client.connection_.toList.map ClientConn.owns =
      [(w.client.connector_.attempt, w.client.connector_.sockfd_)] := by
  unfold ClientWorld.handleWrite
  dsimp only
  rw [if_neg (by simp)]
  rfl

/-- `handleWrite` of an attempt under way passes the descriptor on, or leaves it to its connector. -/
theorem transfers_handleWrite (hpending : w.client.Pending) (hsockfd : 0 ≤ w.client.connector_.sockfd_)
    (hlives : w.destroyed = false) (rest : List (ClientChannel × Events)) (err : Nat) :
    w.Transfers { w with toClientWorld := (w.taken rest).handleWrite err } [] := by
  have htaken : (w.taken rest).client.Pending := hpending.of_same rfl
  by_cases herr : err = 0
  · subst herr
    have howns := handleWrite_owns (w.taken rest)
    obtain ⟨conn, heq⟩ := ClientWorld.handleWrite_connected htaken hsockfd
    rw [heq] at howns ⊢
    have hold : w.owners = (w.client.connector_.attempt, w.client.connector_.sockfd_) ::
        (w.closing.toList ++ w.client.leaving).map ClientConn.owns := by
      simp [owners, hlives, Connector.owns, hpending.connector_, hpending.connection_]
    have hconn : conn.owns = (w.client.connector_.attempt, w.client.connector_.sockfd_) := List.head_eq_of_cons_eq howns
    refine .same ?_ rfl rfl rfl
    rw [hold, ← hconn]
    simp [owners, hlives, Connector.owns, TcpClient.check, ClientWorld.taken]
  · obtain ⟨errorCallbacks, heq⟩ := ClientWorld.handleWrite_failed htaken hsockfd herr
    rw [heq]
    exact .of_same rfl rfl rfl rfl

/-- `retry` makes a new connector, which owns a new descriptor, and destroys the old one. -/
theorem transfers_retry (hinv : w.Retrying) (hlives : w.destroyed = false) (hconnected : w.client.connected_ = false)
    (hcallback : w.client.retryCallback ≠ none) {loop : TimerWorld} {sockfd : Nat} {result : ConnectResult}
    (hfresh : (sockfd : Int) ∉ w.client.descriptors) (hprogress : result.inProgress = true) :
    w.Transfers { w with toClientWorld := (w.renewed loop sockfd).startConnector result } w.client.connector_.owns := by
  obtain ⟨hrenewed, hidle⟩ := ClientWorld.handover_renewed hinv.handover hconnected hcallback loop sockfd
  have hunconnected : w.client.Unconnected := by
    obtain hidle | hpending := hinv.handover.unconnected hconnected
    · exact hidle.toUnconnected
    · exact hpending.toUnconnected
  have hnew : (w.renewed loop sockfd).client =
      { w.client with
        connector_ := Connector.init sockfd (w.client.connector_.attempt + 1)
        retries := w.client.retries ++ [w.client.connected_]
        interestList := w.client.interestList.close w.client.connector_.sockfd_
        descriptors := (w.client.descriptors ++ [(sockfd : Int)]).erase w.client.connector_.sockfd_ } := by
    simp [ClientWorld.renewed, TcpClient.replaceConnector, hunconnected.connector_]
  rw [ClientWorld.startConnector_inProgress hidle hrenewed.sockfd_ hprogress, hnew]
  refine .renew (w.client.connector_.attempt, w.client.connector_.sockfd_) sockfd
    ((w.client.connection_.toList ++ (w.closing.toList ++ w.client.leaving)).map ClientConn.owns) ?_ hfresh ?_ rfl
    rfl ?_
  · simp [owners, hlives, Connector.owns, hunconnected.connector_]
  · simp [owners, hlives, Connector.owns, Connector.init, TcpClient.check]
  · simp [Connector.owns, hunconnected.connector_]

/-- A connection that is closed keeps its descriptor. -/
theorem transfers_handleClose {c : ClientConn} (hconn : w.client.connection_.toList ++ w.closing.toList = [c])
    (hgone : w'.client.connection_.toList ++ w'.closing.toList = []) (hdestroyed : w'.destroyed = w.destroyed)
    (hleaving : w'.client.leaving = (w.client.handleClose c).leaving)
    (hsame : (w'.client.connector_, w'.client.descriptors) = (w.client.connector_, w.client.descriptors)) :
    w.Transfers w' [] := by
  obtain ⟨hconnector, hdescriptors⟩ := Prod.mk.inj hsame
  obtain ⟨closed, heq, hclosed⟩ : ∃ closed : ClientConn,
      (w.client.handleClose c).leaving = w.client.leaving ++ [closed] ∧ closed.owns = c.owns := ⟨_, rfl, rfl⟩
  refine .same ?_ (by rw [hconnector]) hdescriptors rfl
  rw [owners, owners, hdestroyed, hconnector, hleaving, heq, ← List.append_assoc w'.client.connection_.toList,
    ← List.append_assoc w.client.connection_.toList, hgone, hconn]
  refine List.Perm.append_left _ ?_
  simp only [List.nil_append, List.map_append, List.map_cons, List.map_nil, hclosed, List.singleton_append]
  exact List.perm_append_singleton _ _

/-- `closeConnection` lets go of the connection. -/
theorem transfers_closeConnection {conn : ClientConn} (hconn : w.client.connection_ = some conn)
    (hclosing : w.closing = none) :
    w.Transfers { w with client := (w.client.handleClose conn).closeConnection } [] := by
  refine transfers_handleClose (by rw [hconn, hclosing]; rfl) (by rw [hclosing]; rfl) rfl ?_ ?_
  · simp only [TcpClient.closeConnection, TcpClient.check]
  · simp only [TcpClient.closeConnection, TcpClient.handleClose, TcpClient.connectionInterest, TcpClient.check]

/-- `~TcpConnection`. -/
theorem transfers_destroyConnection {conn : ClientConn} {rest : List ClientConn}
    (hleaving : w.client.leaving = conn :: rest) :
    w.Transfers { w with client := { w.client.destroyConnection conn with leaving := rest } } [conn.owns] := by
  refine .release conn.owns ?_ rfl rfl rfl
  simp only [owners, hleaving, List.map_append, List.map_cons]
  rw [← List.append_assoc, ← List.append_assoc]
  refine List.perm_middle.trans (List.Perm.of_eq ?_)
  simp [TcpClient.destroyConnection]

/-- A step of a client that exists, when its connects take their time. -/
theorem lives_transfers {l : ClientLabel} {world : ClientWorld} (hinv : w.Retrying) (hlives : w.destroyed = false)
    (hclosing : w.closing = none) (hprogress : ∀ result ∈ w.connects l, result.inProgress = true)
    (hworld : w.toClientWorld.step l = some world) :
    w.Transfers { w with toClientWorld := world } (w.closes (.step l)) := by
  cases ClientWorld.step_moves hworld with
  | loop => exact .of_same rfl rfl rfl rfl
  | setErrorCallback => exact .of_same rfl rfl rfl rfl
  | @start result timer loop hnone huser hloop =>
    have hresult := hprogress result (by simp [ClientWorld.connects])
    rw [ClientWorld.startConnector_inProgress (hinv.handover.unstarted hnone) hinv.handover.sockfd_ hresult]
    exact .of_same rfl rfl rfl rfl
  | skips hphase hcallback hcanceled =>
    simp only [closes, ClientWorld.connects, hphase, hcanceled, Bool.true_or, if_true, or_true]
    exact .of_same rfl rfl rfl rfl
  | late hphase hcallback hconnected =>
    simp only [closes, ClientWorld.connects, hphase, hconnected, Bool.or_true, if_true, or_true]
    exact .of_same rfl rfl rfl rfl
  | @retry sockfd result loop now e expired hphase hcallback hcanceled hconnected hfresh hloop =>
    have hconnects : w.connects (.retry sockfd result) = [result] := by
      simp [ClientWorld.connects, hphase, hcanceled, hconnected]
    have hresult := hprogress result (by simp [hconnects])
    have hcloses : w.closes (.step (.retry sockfd result)) = w.client.connector_.owns := by
      simp [closes, hlives, hconnects]
    rw [hcloses]
    exact transfers_retry hinv hlives hconnected (by simp [hcallback]) hfresh hresult
  | poll => exact .of_same rfl rfl rfl rfl
  | @handles err revents rest hphase hbatch hout =>
    have hpending := hinv.handover.current (.connector w.client.connector_.attempt, revents) (by simp [hbatch]) rfl
    exact transfers_handleWrite hpending hinv.handover.sockfd_ hlives rest err
  | ignores => exact .of_same rfl rfl rfl rfl
  | dangles => exact .of_same rfl rfl rfl rfl
  | closes hconn => exact transfers_closeConnection hconn hclosing
  | closesAgain hnone =>
    refine .of_same rfl ?_ rfl rfl
    simp only [TcpClient.closeConnection, TcpClient.check, hnone]
  | destroys hleaving =>
    simp only [ClientLife.closes, hleaving, List.head?_cons, Option.toList_some, List.map_cons, List.map_nil]
    exact transfers_destroyConnection hleaving

/-- The connection of the client goes on without it. -/
theorem forceClosed_owns (c : TcpClient) :
    (c.forceClosed.toList ++ c.foundClosed).map ClientConn.owns = c.connection_.toList.map ClientConn.owns := by
  cases hconn : c.connection_ with
  | none => simp [TcpClient.forceClosed, TcpClient.foundClosed, hconn]
  | some conn =>
    by_cases hclosed : conn.state_ = .kDisconnected
    · simp [TcpClient.forceClosed, TcpClient.foundClosed, hconn, hclosed]
    · simp [TcpClient.forceClosed, TcpClient.foundClosed, hconn, hclosed, ClientConn.owns]

/-- `~TcpClient` destroys the connector, which closes a descriptor that it still owns. -/
theorem transfers_destroy (hlives : w.destroyed = false) (hclosing : w.closing = none) :
    w.Transfers w.destroy w.client.connector_.owns := by
  have howners : w.owners.Perm (w.client.connector_.owns ++ w.destroy.owners) := by
    have hclient : (w.destroy.client.connection_, w.destroy.client.leaving) =
        (none, w.client.leaving ++ w.client.foundClosed) := by
      unfold destroy TcpClient.destroyConnector
      dsimp only
      split <;> rfl
    obtain ⟨hconnection, hleaving⟩ := Prod.mk.inj hclient
    have hdestroyed : w.destroy.destroyed = true := rfl
    have hforced : w.destroy.closing = w.client.forceClosed := rfl
    rw [owners, owners, hlives, hclosing, hdestroyed, hforced, hconnection, hleaving]
    refine List.Perm.append_left _ ?_
    simp only [Option.toList_none, List.nil_append, if_true, List.map_append, ← forceClosed_owns]
    rw [List.append_assoc]
    exact List.Perm.append_left _ List.perm_append_comm
  cases hconnected : w.client.connector_.connected_ with
  | true =>
    have howns : w.client.connector_.owns = [] := by simp [Connector.owns, hconnected]
    rw [howns, List.nil_append] at howners
    refine .same howners.symm ?_ ?_ howns
    · simp [destroy, TcpClient.destroyConnector, hconnected]
    · simp [destroy, TcpClient.destroyConnector, hconnected]
  | false =>
    have howns : w.client.connector_.owns = [(w.client.connector_.attempt, w.client.connector_.sockfd_)] := by
      simp [Connector.owns, hconnected]
    rw [howns, List.singleton_append] at howners
    refine .release _ howners ?_ ?_ howns
    · simp [destroy, TcpClient.destroyConnector, hconnected]
    · simp [destroy, TcpClient.destroyConnector, hconnected]

/-- What `connect` returns to the attempt that a step makes. -/
def attempts (w : ClientLife) : LifeLabel → List ConnectResult
  | .step l => w.connects l
  | _ => []

/-- The channel that a step dispatches an event to. -/
def dispatches (w : ClientLife) : LifeLabel → List ClientChannel
  | .step (.event _) => w.client.batch.head?.toList.map Prod.fst
  | _ => []

/-- Every connect takes its time, and an event of a connector is dispatched to the current connector of a client that
exists. -/
def Regular (w : ClientLife) (l : LifeLabel) : Prop :=
  (∀ result ∈ w.attempts l, result.inProgress = true) ∧
    ∀ channel ∈ w.dispatches l,
      channel.isConnection = true ∨ w.destroyed = false ∧ channel = .connector w.client.connector_.attempt

instance (w : ClientLife) (l : LifeLabel) : Decidable (w.Regular l) := inferInstanceAs (Decidable (_ ∧ _))

/-- A client whose connects take their time is connected at most once. -/
theorem lives_newConnections {l : ClientLabel} {world : ClientWorld} (hinv : w.Retrying)
    (hprogress : ∀ result ∈ w.connects l, result.inProgress = true) (hworld : w.toClientWorld.step l = some world)
    (honce : w.client.newConnections.length ≤ 1) : world.client.newConnections.length ≤ 1 := by
  cases ClientWorld.step_moves hworld with
  | @start result timer loop hnone huser hloop =>
    have hresult := hprogress result (by simp [ClientWorld.connects])
    rw [ClientWorld.startConnector_inProgress (hinv.handover.unstarted hnone) hinv.handover.sockfd_ hresult]
    exact honce
  | @retry sockfd result loop now e expired hphase hcallback hcanceled hconnected hfresh hloop =>
    have hresult := hprogress result (by simp [ClientWorld.connects, hphase, hcanceled, hconnected])
    obtain ⟨hrenewed, hidle⟩ := ClientWorld.handover_renewed hinv.handover hconnected (by simp [hcallback]) loop sockfd
    obtain ⟨interestList, descriptors, heq⟩ := w.renewed_eq loop sockfd
    rw [ClientWorld.startConnector_inProgress hidle hrenewed.sockfd_ hresult, heq]
    exact honce
  | @handles err revents rest hphase hbatch hout =>
    have hpending := hinv.handover.current (.connector w.client.connector_.attempt, revents) (by simp [hbatch]) rfl
    have htaken : (w.taken rest).client.Pending := hpending.of_same rfl
    have hnone : (w.taken rest).client.newConnections = [] := (hinv.waiting hpending.connected_).1
    by_cases herr : err = 0
    · subst herr
      obtain ⟨conn, heq⟩ := ClientWorld.handleWrite_connected htaken hinv.handover.sockfd_
      rw [heq]
      simp [hnone]
    · obtain ⟨errorCallbacks, heq⟩ := ClientWorld.handleWrite_failed htaken hinv.handover.sockfd_ herr
      rw [heq]
      exact honce
  | closes =>
    rw [TcpClient.close_eq]
    exact honce
  | _ => exact honce

/-- The invariant. -/
structure Conserved (closed : List (Nat × Int)) (w : ClientLife) : Prop where
  accounted : Accounted closed w
  lives : w.destroyed = false → w.Retrying ∧ w.closing = none
  gone : w.destroyed = true → w.client.connection_ = none
  once : w.client.newConnections.length ≤ 1
  uninvoked : .newConnection ∉ w.invoked

theorem Conserved.of_gone {closed new : List (Nat × Int)} (hinv : Conserved closed w) (htransfers : w.Transfers w' new)
    (hdestroyed : w'.destroyed = true) (hconnection : w'.client.connection_ = none)
    (hnew : w'.client.newConnections = w.client.newConnections) (huninvoked : .newConnection ∉ w'.invoked) :
    Conserved (closed ++ new) w' :=
  ⟨htransfers.accounted hinv.accounted, fun hlives => by simp [hdestroyed] at hlives, fun _ => hconnection,
    by rw [hnew]; exact hinv.once, huninvoked⟩

/-- A step of a client that exists, whatever its connection does meanwhile. -/
theorem Conserved.of_lives {closed : List (Nat × Int)} {l : ClientLabel} {world : ClientWorld} (hinv : Conserved closed w)
    (hlives : w.destroyed = false) (hprogress : ∀ result ∈ w.connects l, result.inProgress = true)
    (hworld : w.toClientWorld.step l = some world) (conn : Option World) :
    Conserved (closed ++ w.closes (.step l)) { w with toClientWorld := world, conn } := by
  obtain ⟨hretrying, hclosing⟩ := hinv.lives hlives
  have htransfers := (lives_transfers hretrying hlives hclosing hprogress hworld).withConn conn
  refine ⟨htransfers.accounted hinv.accounted, fun _ => ?_, fun hdestroyed => ?_, ?_, hinv.uninvoked⟩
  · exact ⟨ClientWorld.retrying_step hretrying hprogress hworld, hclosing⟩
  · simp [hlives] at hdestroyed
  · exact lives_newConnections hretrying hprogress hworld hinv.once

theorem Conserved.step {closed : List (Nat × Int)} {l : LifeLabel} (hinv : Conserved closed w) (hregular : w.Regular l)
    (hstep : w.step l = some w') : Conserved (closed ++ w.closes l) w' := by
  cases step_moves hstep with
  | lives hlives hworld => exact hinv.of_lives hlives hregular.1 hworld _
  | destroy huser hlives =>
    have hclient :
        (w.destroy.client.connection_, w.destroy.client.newConnections) = (none, w.client.newConnections) := by
      unfold destroy TcpClient.destroyConnector
      dsimp only
      split <;> rfl
    obtain ⟨hconnection, hnew⟩ := Prod.mk.inj hclient
    exact hinv.of_gone (transfers_destroy hlives (hinv.lives hlives).2) rfl hconnection hnew hinv.uninvoked
  | loop hdestroyed =>
    exact hinv.of_gone (.of_same rfl rfl rfl rfl) hdestroyed (hinv.gone hdestroyed) rfl hinv.uninvoked
  | @fires sockfd result loop now e expired hdestroyed hphase hcallback hloop =>
    have hcloses : w.closes (.step (.retry sockfd result)) = [] := by simp [closes, hdestroyed]
    rw [hcloses]
    refine hinv.of_gone (.of_same rfl rfl rfl rfl) hdestroyed (hinv.gone hdestroyed) rfl ?_
    dsimp only
    split
    · exact hinv.uninvoked
    · simpa using hinv.uninvoked
  | poll hdestroyed =>
    exact hinv.of_gone (.of_same rfl rfl rfl rfl) hdestroyed (hinv.gone hdestroyed) rfl hinv.uninvoked
  | @event err reported rest hdestroyed hbatch =>
    obtain ⟨channel, revents⟩ := reported
    cases channel with
    | connector attempt =>
      obtain hname | ⟨hlives, _⟩ := hregular.2 (.connector attempt) (by simp [dispatches, hbatch])
      · cases hname
      · simp [hdestroyed] at hlives
    | connection attempt =>
      exact hinv.of_gone (.of_same rfl rfl rfl rfl) hdestroyed (hinv.gone hdestroyed) rfl hinv.uninvoked
  | destroys hdestroyed hleaving =>
    simp only [ClientLife.closes, hleaving, List.head?_cons, Option.toList_some, List.map_cons, List.map_nil]
    exact hinv.of_gone ((transfers_destroyConnection hleaving).withConn none) hdestroyed (hinv.gone hdestroyed) rfl
      hinv.uninvoked
  | @goes l conn conn' =>
    have htransfers : w.Transfers { w with conn := some conn' } [] := .of_same rfl rfl rfl rfl
    exact ⟨htransfers.accounted hinv.accounted, fun hlives => hinv.lives hlives,
      fun hdestroyed => hinv.gone hdestroyed, hinv.once, hinv.uninvoked⟩
  | closes hlives hconn hconn' hworld => exact hinv.of_lives hlives (by simp [ClientWorld.connects]) hworld _
  | calls hdestroyed =>
    have hgone := hinv.gone hdestroyed
    cases hclosing : w.closing with
    | none =>
      refine hinv.of_gone (.of_same rfl ?_ rfl rfl) hdestroyed hgone rfl (by simpa using hinv.uninvoked)
      rw [hclosing]
      rfl
    | some conn =>
      refine hinv.of_gone (transfers_handleClose (c := conn) ?_ ?_ rfl rfl rfl) hdestroyed hgone rfl
        (by simpa using hinv.uninvoked)
      · simp [hgone, hclosing]
      · exact congrArg (·.toList ++ []) hgone

theorem init_conserved (time : Timestamp) (sockfd_ : Nat) : Conserved [] (init time sockfd_) := by
  refine ⟨⟨?_, ?_, ?_⟩, fun _ => ⟨?_, rfl⟩, fun _ => rfl, ?_, ?_⟩
  · exact List.Perm.refl _
  · exact List.Perm.refl _
  · exact List.nodup_singleton _
  · exact ClientWorld.init_retrying time sockfd_
  · exact Nat.zero_le 1
  · exact List.not_mem_nil

/-- In every run in which the connects take their time and each event of a connector finds the current one,
`newConnection` runs at most once, and every descriptor has one owner until it is closed, once. -/
theorem client_sockets_owned_once {time : Timestamp} {sockfd_ : Nat} {labels : List LifeLabel} {w : ClientLife}
    (hregular : Run.Along step Regular (init time sockfd_) labels)
    (hrun : Run.exec step (init time sockfd_) labels = some w) :
    w.client.newConnections.length + w.invoked.count .newConnection ≤ 1 ∧
      Accounted (Run.trace step closes (init time sockfd_) labels) w := by
  have hinv : Conserved ([] ++ Run.trace step closes (init time sockfd_) labels) w :=
    Run.exec_invariant_trace_along (I := Conserved) (fun _ _ _ _ hinv hl hstep => hinv.step hl hstep)
      (init_conserved time sockfd_) hregular hrun
  refine ⟨?_, hinv.accounted⟩
  rw [List.count_eq_zero.mpr hinv.uninvoked]
  exact hinv.once

/-- The second attempt is connected, and the other end hangs up. The client is destroyed before its connection is. -/
theorem client_sockets_owned_second_attempt :
    ∃ w, Run.exec step (init 0 7)
        [.step (.start (.failed EINPROGRESS) 1), .step (.loop .swap), .step (.loop .endTasks),
          .step (.loop (.tick 3000000000)), .step (.poll []), .step (.loop .handleRead),
          .step (.retry 8 (.failed EINPROGRESS)), .step (.loop .settle), .step (.loop .endRead), .step (.loop .swap),
          .step (.loop .endTasks), .step (.poll [(8, EPOLLOUT)]), .step (.event 0), .step (.loop .swap),
          .connection .swap, .connection .endTasks, .step (.loop .endTasks), .step (.poll []),
          .connection (.poll (some EPOLLHUP)), .connection (.dispatch (.failed 0) (.accepted 0)), .destroy,
          .connection (.dispatch (.failed 0) (.accepted 0)), .connection (.dispatch (.failed 0) (.accepted 0)),
          .connection (.dispatch (.failed 0) (.accepted 0)), .step .destroyConnection] = some w ∧
      w.client.newConnections.length = 1 ∧ w.invoked = [] ∧ w.owners = [] ∧ w.client.descriptors = [] ∧
      Accounted [(0, 7), (1, 8)] w := by
  apply Run.Reaches.exists_of
    (p := fun w => w.client.newConnections.length = 1 ∧ w.invoked = [] ∧ w.owners = [] ∧ w.client.descriptors = [])
  · decide +kernel
  · rintro w hrun ⟨hnew, hinvoked, howners, hdescriptors⟩
    exact ⟨hnew, hinvoked, howners, hdescriptors, (client_sockets_owned_once (by decide +kernel) hrun).2⟩

end ClientLife

end mudong.ev
