import TivaAws.Agent.Linked
import TivaAws.Agent.SetupConnection

/-!
# Who owns the sockets

The contexts and descriptors that are live are those of the sockets of the connections. `OwnsSocket`
says so from the side of one connection, with the resources of the others fixed, and is kept by
everything that the agent does with the connection.
-/

namespace TivaAws.Agent

open Mqtt Sockets Sockets.Port Session Lifetime Runs

variable {E : Type} {user : Environment E} {w w' : Endpoint E} {port : Port E} {xSocket : Nat}
  {rest : List Resource} {contexts : Nat → Option SSOCKETContext}

/-! ## One connection -/

/-- The context and the descriptor of the socket of a connection. -/
def MQTTBrokerConnection.resources (contexts : Nat → Option SSOCKETContext)
    (connection : MQTTBrokerConnection) : List Resource :=
  if connection.xSocket = socketsInvalidSocket then []
  else
    match contexts connection.xSocket with
    | none => []
    | some pxContext => [.context connection.xSocket, .descriptor pxContext.xSocket]

theorem resources_closed {connection : MQTTBrokerConnection}
    (h : connection.xSocket = socketsInvalidSocket) : connection.resources contexts = [] :=
  if_pos h

theorem resources_open {connection : MQTTBrokerConnection} {pxContext : SSOCKETContext}
    (h : connection.xSocket ≠ socketsInvalidSocket)
    (hcontext : contexts connection.xSocket = some pxContext) :
    connection.resources contexts =
      [.context connection.xSocket, .descriptor pxContext.xSocket] := by
  unfold MQTTBrokerConnection.resources
  rw [if_neg h, hcontext]

/-- What is live is the socket of the connection, if it has one, and what the others have; and the
contexts of the others are as they were. -/
structure OwnsSocket (rest : List Resource) (contexts : Nat → Option SSOCKETContext)
    (w : Endpoint E) : Prop where
  safe : Safe [] (w.port.outputs.filterMap PortOutput.handleAction)
  live : w.port.live.Perm (w.connection.resources w.port.contexts ++ rest)
  exists_context : w.connection.xSocket ≠ socketsInvalidSocket → w.connection.xSocket ≠ 0 ∧
    ∃ pxContext, w.port.contexts w.connection.xSocket = some pxContext
  elsewhere : ∀ address, .context address ∈ rest → w.port.contexts address = contexts address

theorem OwnsSocket.same (h : OwnsSocket rest contexts w) (hsame : SameSocket w w') :
    OwnsSocket rest contexts w' := by
  have hresources : w'.connection.resources w'.port.contexts =
      w.connection.resources w.port.contexts := by
    unfold MQTTBrokerConnection.resources
    rw [hsame.xSocket, hsame.contexts]
  refine ⟨?_, ?_, ?_, ?_⟩
  · rw [hsame.outputs]
    exact h.safe
  · unfold Port.live
    rw [hsame.outputs, hresources]
    exact h.live
  · rw [hsame.xSocket, hsame.contexts]
    exact h.exists_context
  · rw [hsame.contexts]
    exact h.elsewhere

/-- Safe actions after safe ones. -/
theorem safe_appends {outputs : List PortOutput} {port' : Port E}
    (hsafe : Safe [] (port.outputs.filterMap PortOutput.handleAction))
    (happends : Appends port outputs port')
    (hlater : Safe port.live (outputs.filterMap PortOutput.handleAction)) :
    Safe [] (port'.outputs.filterMap PortOutput.handleAction) := by
  rw [happends, List.filterMap_append, safe_append]
  exact ⟨hsafe, hlater⟩

/-- Nothing is live twice, so the context of the connection is not one of the others. -/
theorem OwnsSocket.not_elsewhere (h : OwnsSocket rest contexts w)
    (hopen : w.connection.xSocket ≠ socketsInvalidSocket) {address : Nat}
    (hrest : .context address ∈ rest) : address ≠ w.connection.xSocket := by
  rintro rfl
  obtain ⟨-, pxContext, hcontext⟩ := h.exists_context hopen
  have hnodup : (w.connection.resources w.port.contexts ++ rest).Nodup :=
    h.live.nodup_iff.mp (nodup_remaining h.safe List.nodup_nil)
  rw [resources_open hopen hcontext] at hnodup
  exact (List.nodup_append.mp hnodup).2.2 _ List.mem_cons_self _ hrest rfl

/-- The socket of the connection is at an address that is not `NULL`, and both of its resources are
live. -/
theorem OwnsSocket.opened (h : OwnsSocket rest contexts w)
    (hopen : w.connection.xSocket ≠ socketsInvalidSocket) :
    ∃ xSocket, w.port.At w.connection.xSocket xSocket ∧
      w.connection.resources w.port.contexts =
        [.context w.connection.xSocket, .descriptor xSocket] := by
  obtain ⟨-, pxContext, hcontext⟩ := h.exists_context hopen
  refine ⟨pxContext.xSocket, ?_, resources_open hopen hcontext⟩
  intro other hother
  rw [hcontext, Option.some.injEq] at hother
  rw [hother]

/-- Serving the socket keeps it. -/
theorem OwnsSocket.serves (h : OwnsSocket rest contexts w)
    (hopen : w.connection.xSocket ≠ socketsInvalidSocket)
    (hat : w.port.At w.connection.xSocket xSocket)
    (hserves : ServesSome w.connection.xSocket xSocket w.port port)
    (hport : w'.port = port) (hsocket : w'.connection.xSocket = w.connection.xSocket) :
    OwnsSocket rest contexts w' := by
  subst hport
  obtain ⟨outputs, hserves⟩ := hserves
  obtain ⟨hnull, pxContext, hcontext⟩ := h.exists_context hopen
  have hdescriptor := hat pxContext hcontext
  subst hdescriptor
  obtain ⟨pxContext', hcontext'⟩ := Option.isSome_iff_exists.mp
    (hserves.kept (Option.isSome_iff_exists.mpr ⟨pxContext, hcontext⟩))
  have hsame := hserves.at_address pxContext' hcontext'
  rw [← hsocket] at hcontext'
  have hresources : w'.connection.resources w'.port.contexts =
      w.connection.resources w.port.contexts := by
    rw [resources_open (hsocket ▸ hopen) hcontext', resources_open hopen hcontext, hsocket, hsame]
  have huses : Uses w.port.live (outputs.filterMap PortOutput.handleAction) := by
    refine hserves.uses.mono fun resource hmem => h.live.mem_iff.mpr ?_
    rw [resources_open hopen hcontext]
    exact List.mem_append_left _ hmem
  refine ⟨safe_appends h.safe hserves.appends huses.safe.1, ?_, ?_, ?_⟩
  · rw [hserves.appends.live, huses.safe.2, hresources]
    exact h.live
  · exact fun _ => ⟨hsocket ▸ hnull, pxContext', hcontext'⟩
  · intro address hrest
    rw [hserves.elsewhere address (h.not_elsewhere hopen hrest)]
    exact h.elsewhere address hrest

/-- Closing the socket releases what the connection has. -/
theorem OwnsSocket.close (h : OwnsSocket rest contexts w)
    (hopen : w.connection.xSocket ≠ socketsInvalidSocket) :
    OwnsSocket rest contexts (prvGracefulSocketClose user w) := by
  obtain ⟨hnull, pxContext, hcontext⟩ := h.exists_context hopen
  obtain ⟨xSocket, hat, hresources⟩ := h.opened hopen
  obtain ⟨outputs, happends, -, -, hcloses⟩ := graceful_close_closes user w hat
  obtain ⟨uses, huses, hactions⟩ :=
    hcloses hnull (Option.isSome_iff_exists.mpr ⟨pxContext, hcontext⟩)
  have hlive := h.live
  rw [hresources] at hlive
  have huses' : Uses w.port.live uses :=
    huses.mono fun resource hmem => hlive.mem_iff.mpr (List.mem_append_left _ hmem)
  have hremaining : (remaining w.port.live
      (closingActions w.connection.xSocket xSocket)).Perm rest := by
    have hboth := (hlive.erase (.descriptor xSocket)).erase (.context w.connection.xSocket)
    show ((w.port.live.erase (.descriptor xSocket)).erase (.context w.connection.xSocket)).Perm rest
    simpa using hboth
  have hclosing : Safe w.port.live (closingActions w.connection.xSocket xSocket) := by
    refine ⟨hlive.mem_iff.mpr List.mem_cons_self,
      hlive.mem_iff.mpr (List.mem_cons_of_mem _ List.mem_cons_self), ?_, trivial⟩
    refine (hlive.erase (.descriptor xSocket)).mem_iff.mpr ?_
    simp
  refine ⟨safe_appends h.safe happends ?_, ?_, ?_, ?_⟩
  · rw [hactions, safe_append, huses'.safe.2]
    exact ⟨huses'.safe.1, hclosing⟩
  · rw [happends.live, hactions, remaining_append, huses'.safe.2, resources_closed rfl]
    exact hremaining
  · exact fun habsurd => absurd rfl habsurd
  · intro address hrest
    rw [graceful_close_elsewhere user w (h.not_elsewhere hopen hrest)]
    exact h.elsewhere address hrest

/-! ## What the library calls -/

theorem serves_send_loop (user : Environment E) (h : port.At w.connection.xSocket xSocket)
    (pucData : List UInt8) (rounds ulBytesSent : Nat) :
    ServesSome w.connection.xSocket xSocket port
      (sendLoop user w.connection.xSocket pucData rounds ulBytesSent port).2 := by
  induction rounds generalizing port ulBytesSent with
  | zero => exact h.refl
  | succ rounds ih =>
      have hsent := serves_send user.toPlatform h (pucData.drop ulBytesSent) 0
      unfold sendLoop
      simp only
      split_ifs
      · exact hsent
      · exact hsent.trans (ih hsent.at_address _)
      · exact hsent.trans (ih hsent.at_address _)
      · exact h.refl

/-- Without a socket nothing is sent and nothing is used. -/
theorem send_loop_without_socket (pucData : List UInt8) (rounds ulBytesSent : Nat)
    (port : Port E) :
    (sendLoop user socketsInvalidSocket pucData rounds ulBytesSent port).2 = port := by
  cases rounds with
  | zero => rfl
  | succ rounds =>
      unfold sendLoop
      split_ifs
      · rfl
      · rfl

theorem OwnsSocket.send (h : OwnsSocket rest contexts w) (pucData : List UInt8) :
    OwnsSocket rest contexts (prvMQTTSendCallback user pucData w).2 := by
  by_cases hopen : w.connection.xSocket ≠ socketsInvalidSocket
  · obtain ⟨xSocket, hat, -⟩ := h.opened hopen
    have hcall := hat.call user.sendRounds
    have hloop := serves_send_loop user (w := w) hcall.at_address pucData
      (w.call user.sendRounds).1 0
    exact h.serves hopen hat (hcall.trans hloop) rfl rfl
  · refine (h.same (same_socket_call user.sendRounds w)).same ⟨rfl, ?_, ?_⟩
    · show (sendLoop user w.connection.xSocket pucData _ 0 _).2.contexts = _
      rw [not_not.mp hopen, send_loop_without_socket]
    · show (sendLoop user w.connection.xSocket pucData _ 0 _).2.outputs = _
      rw [not_not.mp hopen, send_loop_without_socket]

theorem OwnsSocket.disconnect (h : OwnsSocket rest contexts w) :
    OwnsSocket rest contexts (Agent.prvProcessReceivedDisconnect user w) := by
  unfold Agent.prvProcessReceivedDisconnect
  simp only
  refine OwnsSocket.same ?_ (same_socket_notify_all _ _)
  split_ifs with hopen
  · have hcall := same_socket_call_user user .disconnect w
    refine (h.same hcall).close ?_
    rw [hcall.xSocket]
    exact hopen
  · exact h

theorem OwnsSocket.response {label : MQTTOutput} (h : OwnsSocket rest contexts w)
    (hresponse : SocketResponse user w label w') : OwnsSocket rest contexts w' := by
  cases hresponse with
  | same _ hsame => exact h.same hsame
  | event => exact h
  | sent pucData => exact h.send pucData
  | closed => exact h.disconnect

theorem OwnsSocket.responses {labels : List MQTTOutput} (h : OwnsSocket rest contexts w)
    (hresponses : Responses (initParams user) w labels w') : OwnsSocket rest contexts w' := by
  induction hresponses with
  | nil => exact h
  | cons hresponds _ ih => exact ih (h.response (socket_response hresponds))

/-- An operation of the library keeps what the connection has in order. -/
theorem OwnsSocket.does {op : Op} {s s' : Session (Endpoint E)}
    (h : OwnsSocket rest contexts s.world)
    (hdoes : Does (initParams user) op s s') : OwnsSocket rest contexts s'.world := by
  obtain ⟨labels, hcalls, -⟩ := hdoes
  exact h.responses hcalls.responses

/-! ## Setting up -/

/-- A socket that is made when there was none belongs to the connection. -/
theorem OwnsSocket.made {start : Port E} (h : OwnsSocket rest contexts w)
    (hclosed : w.connection.xSocket = socketsInvalidSocket)
    (hcontexts : start.contexts = w.port.contexts) (houtputs : start.outputs = w.port.outputs)
    (hopens : start.Opens w'.connection.xSocket xSocket w'.port) :
    OwnsSocket rest contexts w' := by
  have hlive : start.live = w.port.live := by
    unfold Port.live
    rw [houtputs]
  have hrest : w.port.live.Perm rest := by
    have hown := h.live
    rw [resources_closed hclosed] at hown
    exact hown
  obtain ⟨pxContext, hcontext⟩ := Option.isSome_iff_exists.mp hopens.exists_context
  obtain rfl := hopens.at_address pxContext hcontext
  refine ⟨safe_appends (houtputs ▸ h.safe) hopens.appends ⟨hopens.descriptor_fresh, ?_, trivial⟩,
    ?_, fun _ => ⟨hopens.ne_null, pxContext, hcontext⟩, ?_⟩
  · show .context w'.connection.xSocket ∉ .descriptor pxContext.xSocket :: start.live
    simpa using hopens.context_fresh
  · rw [hopens.appends.live, resources_open hopens.ne_invalid hcontext, hlive]
    exact (hrest.cons _).cons _
  · intro address hmem
    have hother : address ≠ w'.connection.xSocket := by
      rintro rfl
      exact hopens.context_fresh (hlive ▸ hrest.mem_iff.mpr hmem)
    rw [hopens.elsewhere address hother, hcontexts]
    exact h.elsewhere address hmem

/-- Setting up a socket keeps it as a connected one or closes it again. -/
theorem OwnsSocket.setup_socket (h : OwnsSocket rest contexts w)
    (hopen : w.connection.xSocket ≠ socketsInvalidSocket) (params : MQTTAgentConnectParams)
    (ulAddress : UInt32) :
    OwnsSocket rest contexts (setupSocket user params ulAddress w).2 ∧
      ((setupSocket user params ulAddress w).1 = true →
        (setupSocket user params ulAddress w).2.connection.xSocket ≠ socketsInvalidSocket) := by
  obtain ⟨xSocket, hat, -⟩ := h.opened hopen
  obtain ⟨outputs, hserves, -⟩ := serves_open_socket user hat params
    ⟨params.brokerPort, ulAddress⟩ w.connection.secured
  have hopened : OwnsSocket rest contexts (openedSocket user params ulAddress w).2 :=
    h.serves hopen hat ⟨outputs, hserves⟩ rfl rfl
  unfold setupSocket
  rw [if_pos hopen]
  simp only
  split_ifs
  · exact ⟨hopened, fun _ => hopen⟩
  · exact ⟨hopened.close hopen, fun habsurd => by cases habsurd⟩

/-- `prvSetupConnection` on a connection without a socket, if it is granted one. -/
theorem OwnsSocket.setup (h : OwnsSocket rest contexts w)
    (hclosed : w.connection.xSocket = socketsInvalidSocket) {params : MQTTAgentConnectParams}
    (hgranted : SocketGranted user params w) :
    OwnsSocket rest contexts (prvSetupConnection user params w).2 ∧
      ((prvSetupConnection user params w).1 = true →
        (prvSetupConnection user params w).2.connection.xSocket ≠ socketsInvalidSocket) := by
  unfold prvSetupConnection
  rw [if_neg (not_not.mpr hclosed)]
  by_cases hlength : params.pcURL.length ≤ maxDnsNameLength
  · rw [if_pos hlength]
    obtain ⟨hhost, hgrants⟩ := hgranted.resolve_left (Nat.not_lt.mpr hlength)
    obtain ⟨xSocket, hopens⟩ := socket_opens hgrants
    rw [← get_host_found hhost] at hopens
    have hhostPort := get_host_found hhost
    have hrequested : OwnsSocket rest contexts (requestSocket user params w).2 := by
      refine h.made hclosed ?_ ?_ hopens
      · rw [hhostPort]
      · rw [hhostPort]
    exact hrequested.setup_socket hopens.ne_invalid params _
  · rw [if_neg hlength]
    exact ⟨h, fun habsurd => by cases habsurd⟩

/-- Connect on a connection without a session, if it is granted a socket. -/
theorem OwnsSocket.connect {s : Session (Endpoint E)} (h : OwnsSocket rest contexts s.world)
    (hclosed : s.world.connection.xSocket = socketsInvalidSocket) {params : MQTTAgentConnectParams}
    (hgranted : SocketGranted user params s.world) (data : MQTTNotificationData)
    (xTicksToWait : UInt32) :
    OwnsSocket rest contexts (runConnect user params data xTicksToWait s).2.world := by
  have hcases := run_connect_cases user params data xTicksToWait s
  simp only at hcases
  generalize hstart : onEndpoint (fun w =>
    { w with connection := w.connection.configure params }) s = start at hcases
  have hbegun : OwnsSocket rest contexts start.world ∧
      start.world.connection.xSocket = socketsInvalidSocket ∧
      SocketGranted user params start.world := by
    subst hstart
    exact ⟨h.same ⟨rfl, rfl, rfl⟩, hclosed, hgranted⟩
  obtain ⟨hbegun, hclosed', hgranted'⟩ := hbegun
  obtain ⟨howned, hopen⟩ := hbegun.setup hclosed' hgranted'
  have hdoes := (does_connect (initParams user) (connectParams params data xTicksToWait)
    { start with world := (prvSetupConnection user params start.world).2 }).1
  rcases hcases with ⟨-, hrun⟩ | ⟨hset, -, hrun⟩ | ⟨-, -, hrun⟩
  · rw [hrun]
    exact howned
  · rw [hrun]
    refine OwnsSocket.close (OwnsSocket.does howned hdoes) ?_
    rw [connects_keep_socket hdoes]
    exact hopen hset
  · rw [hrun]
    exact OwnsSocket.does howned hdoes

/-! ## All connections -/

namespace MQTTAgent

/-- The contexts and descriptors of the sockets of some connections. -/
def resourcesOf (brokers : List (Fin maxBrokers)) (agent : MQTTAgent E) : List Resource :=
  brokers.flatMap fun broker => (agent.connections broker).resources agent.port.contexts

/-- What is live is the sockets of the connections, and it has never been used otherwise. -/
structure OwnsSockets (agent : MQTTAgent E) : Prop where
  /-- Contexts and descriptors are used and closed while they are live only. -/
  safe : Safe [] (agent.port.outputs.filterMap PortOutput.handleAction)
  /-- What is live are the sockets of the connections. -/
  live : agent.port.live.Perm (agent.resourcesOf (List.finRange maxBrokers))
  /-- A connection with a socket has the context of one. -/
  exists_context : ∀ broker, (agent.connections broker).xSocket ≠ socketsInvalidSocket →
    (agent.connections broker).xSocket ≠ 0 ∧
      ∃ pxContext, agent.port.contexts (agent.connections broker).xSocket = some pxContext

/-- The connections other than one. -/
def others (broker : Fin maxBrokers) : List (Fin maxBrokers) :=
  (List.finRange maxBrokers).erase broker

/-- One connection and the others are all of them. -/
theorem resources_of_others (broker : Fin maxBrokers) (agent : MQTTAgent E) :
    (agent.resourcesOf (List.finRange maxBrokers)).Perm
      ((agent.connections broker).resources agent.port.contexts ++
        agent.resourcesOf (others broker)) := by
  have hsplit := List.perm_cons_erase (List.mem_finRange broker)
  exact hsplit.flatMap_right _

/-- What holds of all connections, from the side of one. -/
theorem OwnsSockets.session {agent : MQTTAgent E} (h : agent.OwnsSockets)
    (broker : Fin maxBrokers) :
    OwnsSocket (agent.resourcesOf (others broker)) agent.port.contexts
      (agent.session broker).world :=
  ⟨h.safe, h.live.trans (resources_of_others broker agent), h.exists_context broker,
    fun _ _ => rfl⟩

/-- Something done in the session of one connection that keeps what it has in order. -/
theorem OwnsSockets.store {agent : MQTTAgent E} (h : agent.OwnsSockets) {broker : Fin maxBrokers}
    {s : Session (Endpoint E)}
    (hsession : OwnsSocket (agent.resourcesOf (others broker)) agent.port.contexts s.world) :
    (agent.store broker s).OwnsSockets := by
  -- The contexts of the other connections are where they were, so these have what they had.
  have hother : ∀ other ∈ others broker,
      (agent.store broker s).connections other = agent.connections other ∧
        ((agent.connections other).xSocket ≠ socketsInvalidSocket →
          s.world.port.contexts (agent.connections other).xSocket =
            agent.port.contexts (agent.connections other).xSocket) := by
    intro other hmem
    refine ⟨Function.update_of_ne ((List.nodup_finRange _).mem_erase_iff.mp hmem).1 _ _, ?_⟩
    intro hopen
    obtain ⟨-, pxContext, hcontext⟩ := h.exists_context other hopen
    refine hsession.elsewhere _ (List.mem_flatMap.mpr ⟨other, hmem, ?_⟩)
    rw [resources_open hopen hcontext]
    exact List.mem_cons_self
  have hself : (agent.store broker s).connections broker = s.world.connection :=
    Function.update_self _ _ _
  have hrest : (agent.store broker s).resourcesOf (others broker) =
      agent.resourcesOf (others broker) := by
    unfold resourcesOf
    refine List.flatMap_congr fun other hmem => ?_
    obtain ⟨hconnection, hcontexts⟩ := hother other hmem
    rw [hconnection]
    unfold MQTTBrokerConnection.resources
    split_ifs with hclosed
    · rfl
    · show (match s.world.port.contexts _ with | none => _ | some pxContext => _) = _
      rw [hcontexts hclosed]
  refine ⟨hsession.safe, ?_, ?_⟩
  · refine List.Perm.trans ?_ (resources_of_others broker (agent.store broker s)).symm
    rw [hself, hrest]
    exact hsession.live
  · intro other hopen
    by_cases hsame : other = broker
    · subst hsame
      rw [hself] at hopen ⊢
      exact hsession.exists_context hopen
    · obtain ⟨hconnection, hcontexts⟩ :=
        hother other (((List.nodup_finRange _).mem_erase_iff).mpr ⟨hsame, List.mem_finRange other⟩)
      rw [hconnection] at hopen ⊢
      show _ ∧ ∃ pxContext, s.world.port.contexts _ = some pxContext
      rw [hcontexts hopen]
      exact h.exists_context other hopen

/-- The socket of a connection is live. -/
theorem OwnsSockets.socket_live {agent : MQTTAgent E} (h : agent.OwnsSockets)
    (broker : Fin maxBrokers) (hopen : (agent.connections broker).xSocket ≠ socketsInvalidSocket) :
    ∃ xSocket, (agent.session broker).world.SocketLive xSocket := by
  obtain ⟨-, pxContext, hcontext⟩ := h.exists_context broker hopen
  have hresources : (agent.session broker).world.connection.resources
      (agent.session broker).world.port.contexts = _ := resources_open hopen hcontext
  have hlive := (h.session broker).live
  rw [hresources] at hlive
  refine ⟨pxContext.xSocket, ⟨pxContext, hcontext, rfl⟩, ?_, ?_⟩
  · exact hlive.mem_iff.mpr List.mem_cons_self
  · exact hlive.mem_iff.mpr (List.mem_cons_of_mem _ List.mem_cons_self)

end MQTTAgent

/-! ## Runs -/

/-- A Connect that is processed finds its connection without a session, and the sockets layer has a
socket for it. -/
def ConnectsInOrder (user : Environment E) (agent : MQTTAgent E)
    (received : Option MQTTEventData) : Prop :=
  ∀ command ∈ received, ∀ params xTicksToWait, command.xEventType = .connectRequest params →
    ((agent.session command.uxBrokerNumber).world.call
      (user.checkForTimeOut command.xTicksToWait)).1 = some xTicksToWait →
    (agent.contexts command.uxBrokerNumber).connectionState = .notConnected ∧
      SocketGranted user params ((agent.session command.uxBrokerNumber).world.call
        (user.checkForTimeOut command.xTicksToWait)).2

theorem owner_kept_by_managing (user : Environment E) (rest : List Resource)
    (contexts : Nat → Option SSOCKETContext) :
    KeptByManaging user fun s => OwnsSocket rest contexts s.world where
  receives s h hopen := by
    obtain ⟨xSocket, hat, -⟩ := h.opened hopen
    exact h.serves hopen hat (serves_recv user.toPlatform hat rxBufferSize 0) rfl rfl
  ticks s h := h.same (same_socket_call user.getTicks s.world)
  does _ _ _ _ _ h hdoes := h.does hdoes

/-- What holds of a session that is linked and owns its socket. -/
structure OwningSession (rest : List Resource) (contexts : Nat → Option SSOCKETContext)
    (s : Session (Endpoint E)) : Prop where
  linked : LinkedSession s
  owns : OwnsSocket rest contexts s.world

theorem owner_kept_by_commands (user : Environment E) (rest : List Resource)
    (contexts : Nat → Option SSOCKETContext) :
    KeptByCommands user (OwningSession rest contexts) where
  same s s' hsame hproceeds hcontext h :=
    ⟨(linked_kept_by_commands user).same s s' hsame hproceeds hcontext h.linked,
      h.owns.same hsame⟩
  executes op s s' hop h hexecute :=
    ⟨(linked_kept_by_commands user).executes op s s' hop h.linked hexecute,
      h.owns.does (executed (initParams user) op h.linked.base hexecute).1⟩

/-- The invariant of runs in which every Connect is in order. -/
structure MQTTAgent.Orderly (agent : MQTTAgent E) : Prop where
  linked : agent.Linked
  owns : agent.OwnsSockets

theorem orderly_kept_by_connections (user : Environment E) :
    KeptByConnections user MQTTAgent.Orderly := by
  intro agent broker h
  obtain ⟨received, hreceived, hlinked⟩ := linked_kept_by_connections user agent broker h.linked
  obtain ⟨received', hreceived', -, howns⟩ := manage_session
    (owner_kept_by_managing user _ _) (h.linked broker).base (h.owns.session broker)
  rw [hreceived] at hreceived'
  cases hreceived'
  exact ⟨received, hreceived, hlinked, h.owns.store howns⟩

theorem MQTTAgent.Orderly.step {agent : MQTTAgent E} (h : agent.Orderly)
    {received : Option MQTTEventData} (horder : ConnectsInOrder user agent received) :
    ∃ agent', agentStep user agent received = some agent' ∧ agent'.Orderly := by
  refine task_round_preserves (orderly_kept_by_connections user) (fun _ => h)
    fun command hcommand => ?_
  have hlinked : (agent.receive command.xNotificationData).Linked :=
    fun broker => ⟨(h.linked broker).base, (h.linked broker).linked⟩
  have howns : (agent.receive command.xNotificationData).OwnsSockets :=
    ⟨h.owns.safe, h.owns.live, h.owns.exists_context⟩
  have hprocessed := process_command_session (owner_kept_by_commands user _ _) command
    (⟨hlinked command.uxBrokerNumber, howns.session command.uxBrokerNumber⟩ :
      OwningSession _ _ _) ?_
  · exact ⟨hlinked.store hprocessed.linked, howns.store hprocessed.owns⟩
  · intro params xTicksToWait s' hevent hticks hcontext hport hs'
    obtain ⟨hidle, hgranted⟩ := horder command hcommand params xTicksToWait hevent hticks
    refine ⟨hs'.linked.run_connect params _ _, hs'.owns.connect ?_ ?_ _ _⟩
    · refine hs'.linked.linked.mpr ?_
      rw [hcontext]
      exact hidle
    · unfold SocketGranted
      rw [hport]
      exact hgranted

theorem orderly_initial (memory : Fin maxBrokers → MQTTContext) (environment : E) :
    (MQTTAgent.initial memory environment).Orderly := by
  refine ⟨linked_initial memory environment, trivial, ?_, fun _ habsurd => absurd rfl habsurd⟩
  exact .of_eq rfl

/-- Whatever the commands, the broker, the clock and the sockets layer do, the MQTT task returns to
the queue, and then each connection has a socket exactly if its context is not in the state
NotConnected. If besides every Connect is made without a session and granted a socket, then no
socket has been used after it was closed, those that are open are the ones of the sessions, and
every session has one. -/
theorem sockets_follow_sessions (user : Environment E) (memory : Fin maxBrokers → MQTTContext)
    (environment : E) (events : List (Option MQTTEventData)) :
    ∃ agent, run (agentStep user) events (.initial memory environment) = some agent ∧
      (∀ broker, (agent.connections broker).xSocket ≠ socketsInvalidSocket ↔
        (agent.contexts broker).connectionState ≠ .notConnected) ∧
      (Throughout (agentStep user) (ConnectsInOrder user) (.initial memory environment) events →
        Safe [] (agent.port.outputs.filterMap PortOutput.handleAction) ∧
        agent.port.live.Perm (agent.resourcesOf (List.finRange maxBrokers)) ∧
        ∀ broker, (agent.contexts broker).connectionState ≠ .notConnected →
          ∃ xSocket, (agent.session broker).world.SocketLive xSocket) := by
  have htotal : ∀ {agent : MQTTAgent E} received, agent.Linked →
      ∃ agent', agentStep user agent received = some agent' := by
    intro agent received h
    obtain ⟨agent', hstep, -⟩ := h.step user received
    exact ⟨agent', hstep⟩
  obtain ⟨agent, hrun, hlinked⟩ := run_of_throughout (G := fun _ _ => True) MQTTAgent.Linked htotal
    (fun {agent received agent'} h _ hstep => by
      obtain ⟨next, hnext, hlinked⟩ := h.step user received
      rw [hstep] at hnext
      cases hnext
      exact hlinked)
    (linked_initial memory environment) (throughout_of_forall fun _ _ => trivial)
  refine ⟨agent, hrun, fun broker => not_congr (hlinked broker).linked, fun horder => ?_⟩
  obtain ⟨agent', hrun', horderly⟩ := run_of_throughout MQTTAgent.Orderly
    (fun received h => htotal received h.linked)
    (fun {agent received agent'} h horder hstep => by
      obtain ⟨next, hnext, horderly⟩ := h.step horder
      rw [hstep] at hnext
      cases hnext
      exact horderly)
    (orderly_initial memory environment) horder
  rw [hrun] at hrun'
  cases hrun'
  refine ⟨horderly.owns.safe, horderly.owns.live, fun broker hsession => ?_⟩
  exact horderly.owns.socket_live broker (mt (hlinked broker).linked.mp hsession)

/-- A Connect of a task, and a round without a command after it. -/
def connectRounds : List (Option MQTTEventData) :=
  [some
    { uxBrokerNumber := ⟨0, max_brokers_pos⟩
      xEventType := .connectRequest benchConnectParams
      xNotificationData := ⟨some 1, 0x10000⟩
      xTicksToWait := 100 }, none]

/-- On the bench the sockets are in order after a Connect. -/
theorem sockets_follow_sessions_connect :
    ∃ agent, run (agentStep (benchEnvironment true)) connectRounds
        (.initial (fun _ => blankContext) 1) = some agent ∧
      Safe [] (agent.port.outputs.filterMap PortOutput.handleAction) := by
  obtain ⟨agent, hrun, -, horder⟩ := sockets_follow_sessions (benchEnvironment true)
    (fun _ => blankContext) 1 connectRounds
  refine ⟨agent, hrun, (horder ?_).1⟩
  intro connected _
  refine ⟨?_, fun last _ => ⟨?_, trivial⟩⟩
  · intro command hcommand params xTicksToWait hevent _
    cases hcommand
    cases hevent
    exact ⟨rfl, Or.inr ⟨rfl, by decide⟩⟩
  · intro command hnone
    cases hnone

end TivaAws.Agent
