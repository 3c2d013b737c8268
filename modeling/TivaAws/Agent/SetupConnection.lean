import TivaAws.Agent.Connection
import TivaAws.Sockets.Lifetimes

/-!
# Sockets while a connection is set up

`prvSetupConnection` takes whatever is not `SOCKETS_INVALID_SOCKET` for a socket, but the port
reports a socket it could not make as `NULL`, and it reads the answer of the name server even if
there is none. So the descriptors and contexts are in order exactly if the URL is refused
beforehand, or the name is found, lwIP has a descriptor and there is memory for its context
(`setup_connection_orderly`); everything after that may fail.
-/

namespace TivaAws.Agent

open Mqtt Sockets Sockets.Port Lifetime

variable {E : Type} {user : Environment E} {address xSocket : Nat} {port : Port E}
  {w : Endpoint E}

/-! ## Serving the socket -/

theorem serves_drain_socket (user : Environment E) (h : port.At address xSocket) (rounds : Nat) :
    ServesSome address xSocket port (drainSocket user address rounds port) := by
  induction rounds generalizing port with
  | zero => exact serves_recv user.toPlatform h rxBufferSize 0
  | succ rounds ih =>
      have hrecv := serves_recv user.toPlatform h rxBufferSize 0
      unfold drainSocket
      simp only
      split_ifs
      · exact hrecv.trans (ih hrecv.at_address)
      · exact hrecv

theorem serves_try_set {port' : Port E} {option : Option SocketOption} {xStatus : Bool}
    (h : ServesSome address xSocket port port') :
    ServesSome address xSocket port (trySetSockOpt user address option xStatus port').2 := by
  unfold trySetSockOpt
  split
  next => exact h.trans (serves_set_sock_opt user.toPlatform h.at_address 0 _)
  next => exact h

theorem serves_secure_socket (h : port.At address xSocket) (params : MQTTAgentConnectParams) :
    ServesSome address xSocket port (secureSocket user params address port).2 :=
  serves_try_set (serves_try_set (serves_try_set (serves_try_set h.refl)))

/-- A socket is gone through at once, and one that is reported as open has been connected. -/
theorem serves_open_socket (user : Environment E) (h : port.At address xSocket)
    (params : MQTTAgentConnectParams) (broker : SocketsSockaddr) (secured : Bool) :
    let opened := openSocket user params broker secured address port
    ∃ outputs, Serves address xSocket port outputs opened.2 ∧
      .action (.use (.context address)) ∈ outputs ∧
      (opened.1 = true → .connected xSocket ∈ outputs) := by
  obtain ⟨first, hwakeup⟩ :=
    set_sock_opt_uses user.toPlatform h 0 (.other socketsSoWakeupCallback)
  unfold openSocket
  simp only
  generalize (socketsSetSockOpt user.toPlatform address 0 (.other socketsSoWakeupCallback) port).2
    = woken at hwakeup ⊢
  have hoptions : ServesSome address xSocket woken
      (if secured then secureSocket user params address woken else (true, woken)).2 := by
    split_ifs
    · exact serves_secure_socket hwakeup.at_address params
    · exact hwakeup.at_address.refl
  generalize (if secured then secureSocket user params address woken else (true, woken))
    = options at hoptions ⊢
  obtain ⟨before, hbefore⟩ := hoptions
  have hbegun := hwakeup.trans hbefore
  split_ifs with hset hstatus
  · obtain ⟨outputs, hconnect, hconnected⟩ :=
      serves_connect user.toPlatform hbefore.at_address broker
    obtain ⟨later, hlater⟩ :=
      serves_set_sock_opt user.toPlatform hconnect.at_address 0xfff .nonblock
    refine ⟨_, (hbegun.trans hconnect).trans hlater, List.mem_cons_self, fun _ => ?_⟩
    exact List.mem_append_left _ (List.mem_append_right _ (hconnected hstatus))
  · obtain ⟨outputs, hconnect, -⟩ := serves_connect user.toPlatform hbefore.at_address broker
    exact ⟨_, hbegun.trans hconnect, List.mem_cons_self, fun habsurd => by cases habsurd⟩
  · exact ⟨_, hbegun, List.mem_cons_self, fun habsurd => absurd habsurd hset⟩

/-- `prvGracefulSocketClose` serves the socket and then closes it. -/
theorem graceful_close_serves (user : Environment E) (w : Endpoint E)
    (h : w.port.At w.connection.xSocket xSocket) :
    ∃ drained, ServesSome w.connection.xSocket xSocket w.port drained ∧
      (prvGracefulSocketClose user w).port =
        socketsClose user.toPlatform w.connection.xSocket drained := by
  have hshutdown := serves_shutdown user.toPlatform h shutRdwr
  have hcall := hshutdown.trans (hshutdown.at_address.call user.closeRounds)
  exact ⟨_, hcall.trans (serves_drain_socket user hcall.at_address
    ((socketsShutdown user.toPlatform w.connection.xSocket shutRdwr w.port).2.call
      user.closeRounds).1), rfl⟩

/-- `prvGracefulSocketClose` appends outputs, goes through its socket only, and for a socket that
exists they close it. -/
theorem graceful_close_closes (user : Environment E) (w : Endpoint E)
    (h : w.port.At w.connection.xSocket xSocket) :
    ∃ outputs, Appends w.port outputs (prvGracefulSocketClose user w).port ∧
      (∀ reported, .noSocket reported ∉ outputs) ∧
      (∀ handle, .action (.use (.context handle)) ∈ outputs → handle = w.connection.xSocket) ∧
      (w.connection.xSocket ≠ 0 → (w.port.contexts w.connection.xSocket).isSome →
        ∃ uses, Uses [.context w.connection.xSocket, .descriptor xSocket] uses ∧
          outputs.filterMap PortOutput.handleAction =
            uses ++ closingActions w.connection.xSocket xSocket) := by
  obtain ⟨drained, ⟨outputs, hserves⟩, hclose⟩ := graceful_close_serves user w h
  obtain ⟨closing, happends, hno, hhandle, hcloses⟩ :=
    close_closes user.toPlatform hserves.at_address
  rw [← hclose] at happends
  refine ⟨outputs ++ closing, hserves.appends.trans happends, ?_, ?_, ?_⟩
  · intro reported hmem
    rcases List.mem_append.mp hmem with hmem | hmem
    · exact hserves.no_socket reported hmem
    · exact hno reported hmem
  · intro handle hmem
    rcases List.mem_append.mp hmem with hmem | hmem
    · exact hserves.handle hmem
    · exact hhandle handle hmem
  · intro hnull hsome
    refine ⟨_, hserves.uses, ?_⟩
    rw [List.filterMap_append, hcloses hnull (hserves.kept hsome)]

/-- Closing a socket leaves the other contexts alone. -/
theorem graceful_close_elsewhere (user : Environment E) (w : Endpoint E) {other : Nat}
    (hother : other ≠ w.connection.xSocket) :
    (prvGracefulSocketClose user w).port.contexts other = w.port.contexts other := by
  obtain ⟨xSocket, hat⟩ := exists_at w.connection.xSocket w.port
  obtain ⟨drained, ⟨outputs, hserves⟩, hclose⟩ := graceful_close_serves user w hat
  rw [hclose, close_elsewhere user.toPlatform drained hother, hserves.elsewhere other hother]

/-! ## Orderly set-up -/

/-- What a port has done since. -/
def portOutputsSince (before after : Port E) : List PortOutput :=
  after.outputs.drop before.outputs.length

theorem outputs_since {after : Port E} {outputs : List PortOutput}
    (h : Appends port outputs after) : portOutputsSince port after = outputs := by
  unfold portOutputsSince
  rw [h, List.drop_left]

/-- The socket of the connection is the context of a descriptor, and both are live. -/
def Endpoint.SocketLive (w : Endpoint E) (xSocket : Nat) : Prop :=
  (∃ pxContext, w.port.contexts w.connection.xSocket = some pxContext ∧
    pxContext.xSocket = xSocket) ∧
  .context w.connection.xSocket ∈ w.port.live ∧ .descriptor xSocket ∈ w.port.live

/-- What the sockets layer and the agent promise each other while a connection is set up. -/
structure OrderlySetup (before after : Endpoint E) (xStatus : Bool) : Prop where
  /-- No access goes through `NULL` or `SOCKETS_INVALID_SOCKET`. -/
  handles : ∀ handle, .action (.use (.context handle)) ∈ portOutputsSince before.port after.port →
    handle ≠ 0 ∧ handle ≠ socketsInvalidSocket
  /-- Contexts and descriptors are used and closed while they are live only. -/
  safe : Safe before.port.live
    ((portOutputsSince before.port after.port).filterMap PortOutput.handleAction)
  /-- A socket that was not made is reported as invalid. -/
  reported : ∀ reported, .noSocket reported ∈ portOutputsSince before.port after.port →
    reported = socketsInvalidSocket
  /-- `pdPASS` comes with a live connected socket. -/
  connected : xStatus = true → ∃ xSocket, after.SocketLive xSocket ∧
    .connected xSocket ∈ portOutputsSince before.port after.port
  /-- A descriptor that was opened is that of the live socket or was closed exactly once. -/
  closed : ∀ xSocket,
    .action (.acquire (.descriptor xSocket)) ∈ portOutputsSince before.port after.port →
    after.SocketLive xSocket ∨
      ((portOutputsSince before.port after.port).filterMap PortOutput.handleAction).count
        (.release (.descriptor xSocket)) = 1

/-- The name is found, lwIP has a descriptor and there is memory for its context, unless the URL
is too long for any of them to be asked. -/
def SocketGranted (user : Environment E) (params : MQTTAgentConnectParams) (w : Endpoint E) :
    Prop :=
  maxDnsNameLength < params.pcURL.length ∨
    (user.gethostbyname params.pcURL w.port.environment).1.isSome ∧
      user.toPlatform.GrantsSocket
        { w.port with
          environment := (user.gethostbyname params.pcURL w.port.environment).2 }

section Opened

variable {w' : Endpoint E} {start opened : Port E} {outputs : List PortOutput}
  {uses last : List (Action Resource)}

/-- The actions of opening a socket. -/
def openingActions (address xSocket : Nat) : List (Action Resource) :=
  [.acquire (.descriptor xSocket), .acquire (.context address)]

/-- What is opened can be used, and closed in the end. -/
theorem opened_safe {live : List Resource} (hcontext : .context address ∉ live)
    (hdescriptor : .descriptor xSocket ∉ live)
    (huses : Uses [.context address, .descriptor xSocket] uses)
    (hlast : last = [] ∨ last = closingActions address xSocket) :
    Safe live (openingActions address xSocket ++ (uses ++ last)) := by
  have hmore : Uses (.context address :: .descriptor xSocket :: live) uses :=
    huses.mono (by simp)
  refine ⟨hdescriptor, ?_, ?_⟩
  · show .context address ∉ .descriptor xSocket :: live
    simpa using hcontext
  · show Safe (.context address :: .descriptor xSocket :: live) (uses ++ last)
    rw [safe_append, hmore.safe.2]
    refine ⟨hmore.safe.1, ?_⟩
    rcases hlast with rfl | rfl
    · trivial
    · refine ⟨?_, ?_, ?_, trivial⟩
      · exact List.mem_cons_self
      · exact List.mem_cons_of_mem _ List.mem_cons_self
      · show .context address ∈
          (.context address :: .descriptor xSocket :: live).erase (.descriptor xSocket)
        simp

/-- Only the context that was opened is accessed. -/
theorem opened_handles (huses : Uses [.context address, .descriptor xSocket] uses)
    (hlast : last = [] ∨ last = closingActions address xSocket) {handle : Nat}
    (hmem : .use (.context handle) ∈ openingActions address xSocket ++ (uses ++ last)) :
    handle = address := by
  rcases List.mem_append.mp hmem with hmem | hmem
  · simp [openingActions] at hmem
  · rcases List.mem_append.mp hmem with hmem | hmem
    · obtain ⟨x, hx, hused⟩ := huses _ hmem
      rw [Action.use.injEq] at hused
      rw [← hused] at hx
      simpa using hx
    · rcases hlast with rfl | rfl
      · cases hmem
      · simpa [closingActions] using hmem

/-- What is common to a set-up that keeps its socket and one that closes it again. -/
theorem orderly_of_opened (hsame : start.outputs = w.port.outputs)
    (hopens : start.Opens address xSocket opened) (happends : Appends opened outputs w'.port)
    (hno : ∀ reported, .noSocket reported ∉ outputs)
    (huses : Uses [.context address, .descriptor xSocket] uses)
    (hlast : last = [] ∨ last = closingActions address xSocket)
    (hactions : outputs.filterMap PortOutput.handleAction = uses ++ last) {xStatus : Bool}
    (hconnected : xStatus = true → .connected xSocket ∈ outputs)
    (hlive : xStatus = true → w'.SocketLive xSocket)
    (hclosed : w'.SocketLive xSocket ∨ last = closingActions address xSocket) :
    OrderlySetup w w' xStatus := by
  have hwhole : Appends w.port ([.action (.acquire (.descriptor xSocket)),
      .action (.acquire (.context address))] ++ outputs) w'.port := by
    have htrans := hopens.appends.trans happends
    unfold Appends at htrans ⊢
    rw [htrans, hsame]
  have hlivesame : start.live = w.port.live := by
    unfold Port.live
    rw [hsame]
  have hsince := outputs_since hwhole
  have hdone : (portOutputsSince w.port w'.port).filterMap PortOutput.handleAction =
      openingActions address xSocket ++ (uses ++ last) := by
    rw [hsince, List.filterMap_append, hactions]
    rfl
  have hsafe : Safe w.port.live (openingActions address xSocket ++ (uses ++ last)) := by
    refine opened_safe ?_ ?_ huses hlast
    · exact hlivesame ▸ hopens.context_fresh
    · exact hlivesame ▸ hopens.descriptor_fresh
  refine ⟨?_, ?_, ?_, ?_, ?_⟩
  · intro handle hmem
    have haction : .use (.context handle) ∈
        (portOutputsSince w.port w'.port).filterMap PortOutput.handleAction :=
      List.mem_filterMap.mpr ⟨_, hmem, rfl⟩
    rw [hdone] at haction
    rw [opened_handles huses hlast haction]
    exact ⟨hopens.ne_null, hopens.ne_invalid⟩
  · rw [hdone]
    exact hsafe
  · intro reported hmem
    rw [hsince] at hmem
    rcases List.mem_append.mp hmem with hmem | hmem
    · simp at hmem
    · exact absurd hmem (hno reported)
  · intro hstatus
    refine ⟨xSocket, hlive hstatus, ?_⟩
    rw [hsince]
    exact List.mem_append_right _ (hconnected hstatus)
  · intro other hmem
    have haction : .acquire (.descriptor other) ∈
        (portOutputsSince w.port w'.port).filterMap PortOutput.handleAction :=
      List.mem_filterMap.mpr ⟨_, hmem, rfl⟩
    rw [hdone] at haction ⊢
    have hother : other = xSocket := by
      rcases List.mem_append.mp haction with hmem | hmem
      · simpa [openingActions] using hmem
      · rcases List.mem_append.mp hmem with hmem | hmem
        · obtain ⟨x, -, hx⟩ := huses _ hmem
          cases hx
        · rcases hlast with rfl | rfl
          · cases hmem
          · simp [closingActions] at hmem
    subst hother
    rcases hclosed with hlive | rfl
    · exact Or.inl hlive
    · right
      simp [openingActions, closingActions, huses.count_release]

end Opened

/-! ## The set-up -/

/-- The endpoint whose socket has been set up. -/
def openedSocket (user : Environment E) (params : MQTTAgentConnectParams) (ulAddress : UInt32)
    (w : Endpoint E) : Bool × Endpoint E :=
  w.onPort (openSocket user params ⟨params.brokerPort, ulAddress⟩ w.connection.secured
    w.connection.xSocket)

/-- What is done after the socket was asked for is appended. -/
theorem setup_socket_appends (user : Environment E) (params : MQTTAgentConnectParams)
    (ulAddress : UInt32) (w : Endpoint E) :
    ∃ outputs, Appends w.port outputs (setupSocket user params ulAddress w).2.port := by
  obtain ⟨xSocket, hat⟩ := exists_at w.connection.xSocket w.port
  obtain ⟨outputs, hserves, -⟩ := serves_open_socket user hat params
    ⟨params.brokerPort, ulAddress⟩ w.connection.secured
  obtain ⟨later, happends, -, -⟩ := graceful_close_closes user
    (openedSocket user params ulAddress w).2 hserves.at_address
  unfold setupSocket
  simp only
  split_ifs
  · exact ⟨outputs, hserves.appends⟩
  · exact ⟨outputs ++ later, hserves.appends.trans happends⟩
  · exact ⟨[], (List.append_nil _).symm⟩

theorem socket_appends (platform : Platform E) (port : Port E) :
    ∃ outputs, Appends port outputs (socketsSocket platform port).2 := by
  by_cases hgrants : platform.GrantsSocket port
  · obtain ⟨xSocket, hopens⟩ := socket_opens hgrants
    exact ⟨_, hopens.appends⟩
  · obtain ⟨-, outputs, happends, -⟩ := socket_refused hgrants
    exact ⟨outputs, happends⟩

/-- A set-up that does nothing is orderly. -/
theorem orderly_nothing (w : Endpoint E) : OrderlySetup w w false := by
  have hsince : portOutputsSince w.port w.port = [] := List.drop_length
  refine ⟨?_, ?_, ?_, ?_, ?_⟩
  · rw [hsince]
    exact fun handle hmem => absurd hmem List.not_mem_nil
  · rw [hsince]
    trivial
  · rw [hsince]
    exact fun reported hmem => absurd hmem List.not_mem_nil
  · exact fun hstatus => by cases hstatus
  · rw [hsince]
    exact fun xSocket hmem => absurd hmem List.not_mem_nil

/-- A socket that was opened is kept as a connected one or closed again. -/
theorem setup_socket_orderly (params : MQTTAgentConnectParams) (ulAddress : UInt32)
    {start : Port E} {made : Endpoint E} (hsame : start.outputs = w.port.outputs)
    (hopens : start.Opens made.connection.xSocket xSocket made.port) :
    OrderlySetup w (setupSocket user params ulAddress made).2
      (setupSocket user params ulAddress made).1 := by
  obtain ⟨outputs, hserves, -, hconnected⟩ := serves_open_socket user hopens.at_address
    params ⟨params.brokerPort, ulAddress⟩ made.connection.secured
  obtain ⟨later, happends, hno, -, hcloses⟩ := graceful_close_closes user
    (openedSocket user params ulAddress made).2 hserves.at_address
  have hsome := hserves.kept hopens.exists_context
  unfold setupSocket
  simp only [ne_eq, hopens.ne_invalid, not_false_eq_true, if_true]
  split_ifs with hopened
  · have hlive : Endpoint.SocketLive (openedSocket user params ulAddress made).2 xSocket := by
      obtain ⟨pxContext, hcontext⟩ := Option.isSome_iff_exists.mp hsome
      have hresources : (openedSocket user params ulAddress made).2.port.live = _ :=
        hopens.live hserves
      refine ⟨⟨pxContext, hcontext, hserves.at_address pxContext hcontext⟩, ?_, ?_⟩
      · rw [hresources]
        exact List.mem_cons_self
      · rw [hresources]
        exact List.mem_cons_of_mem _ List.mem_cons_self
    show OrderlySetup w (openedSocket user params ulAddress made).2
      (openedSocket user params ulAddress made).1
    exact orderly_of_opened hsame hopens hserves.appends hserves.no_socket hserves.uses
      (Or.inl rfl) (List.append_nil _).symm hconnected (fun _ => hlive) (Or.inl hlive)
  · obtain ⟨uses, huses, hactions⟩ := hcloses hopens.ne_null hsome
    refine orderly_of_opened hsame hopens (hserves.appends.trans happends) ?_
      (hserves.uses.append huses) (Or.inr rfl) ?_ (fun hstatus => by cases hstatus)
      (fun hstatus => by cases hstatus) (Or.inr rfl)
    · intro reported hmem
      rcases List.mem_append.mp hmem with hmem | hmem
      · exact hserves.no_socket reported hmem
      · exact hno reported hmem
    · rw [List.filterMap_append, hactions, List.append_assoc]
      rfl

/-- A connection is set up in good order exactly if its socket is granted. -/
theorem setup_connection_orderly (user : Environment E) (params : MQTTAgentConnectParams)
    (w : Endpoint E) (hclosed : w.connection.xSocket = socketsInvalidSocket) :
    OrderlySetup w (prvSetupConnection user params w).2 (prvSetupConnection user params w).1 ↔
      SocketGranted user params w := by
  unfold prvSetupConnection
  simp only [hclosed, ne_eq, not_true_eq_false, if_false]
  split_ifs with hlength
  · have hshort : ¬ maxDnsNameLength < params.pcURL.length := Nat.not_lt.mpr hlength
    constructor
    · intro h
      obtain ⟨later, hlater⟩ := setup_socket_appends user params
        (requestSocket user params w).1 (requestSocket user params w).2
      have hhost : (user.gethostbyname params.pcURL w.port.environment).1.isSome := by
        by_contra hmissing
        obtain ⟨asked, hasked⟩ := socket_appends user.toPlatform
          (socketsGetHostByName user.toPlatform params.pcURL w.port).2
        have hwhole := ((get_host_missing hmissing).trans hasked).trans hlater
        refine (h.handles 0 ?_).1 rfl
        rw [outputs_since hwhole]
        exact List.mem_cons_self
      refine Or.inr ⟨hhost, ?_⟩
      by_contra hrefused
      obtain ⟨-, asked, hasked, hno⟩ := socket_refused hrefused
      rw [← get_host_found hhost] at hasked
      have hstart : (socketsGetHostByName user.toPlatform params.pcURL w.port).2.outputs =
          w.port.outputs := by
        rw [get_host_found hhost]
      have hrequested : Appends w.port asked (requestSocket user params w).2.port := by
        unfold Appends at hasked ⊢
        rw [← hstart]
        exact hasked
      have hwhole := hrequested.trans hlater
      have hreported := h.reported 0 (by
        rw [outputs_since hwhole]
        exact List.mem_append_left _ hno)
      cases hreported
    · rintro (habsurd | ⟨hhost, hgrants⟩)
      · exact absurd habsurd hshort
      · obtain ⟨xSocket, hopens⟩ := socket_opens hgrants
        have hrequested : Opens (requestSocket user params w).2.connection.xSocket xSocket
            { w.port with
              environment := (user.gethostbyname params.pcURL w.port.environment).2 }
            (requestSocket user params w).2.port := by
          rw [← get_host_found hhost] at hopens ⊢
          exact hopens
        refine setup_socket_orderly params _ ?_ hrequested
        rfl
  · exact iff_of_true (orderly_nothing w) (Or.inl (Nat.not_le.mp hlength))

/-! ## A bench -/

/-- An environment that counts allocations, in which every call succeeds, except that there may be
no descriptor. -/
def benchEnvironment (descriptors : Bool) : Environment Nat where
  gethostbyname _ e := (some 1, e)
  socket live e :=
    (if h : descriptors ∧ .descriptor 0 ∉ live then some ⟨0, h.2⟩ else none, e)
  setsockopt _ _ _ e := (0, e)
  connect _ _ _ e := (0, e)
  recv _ _ _ e := (.error 0, e)
  send _ data _ e := (data.length, e)
  shutdown _ _ e := (0, e)
  close _ e := e
  malloc used _ e :=
    (if h : e ∉ used ∧ e ≠ 0 ∧ e ≠ socketsInvalidSocket then
      some ⟨e, fun _ => 0, h.1, h.2.1, h.2.2⟩ else none, e + 1)
  tlsInit e := (true, e)
  tlsConnect e := (0, e)
  tlsRecv _ e := (.error 0, e)
  tlsSend data e := (data.length, e)
  tlsCleanup e := e
  closeRounds e := (1, e)
  sendRounds e := (1, e)
  checkForTimeOut ticks e := (some ticks, e)
  getTicks e := (1, e)
  getBuffer requested e :=
    (some
      { handle := e
        length := requested
        bufferState := ⟨0, 0, 0⟩
        data := fun _ => 0
        requested_le := Nat.le_refl _ }, e + 1)
  returnBuffer _ e := e
  callback _ _ _ e := (false, e)
  publishCallback _ _ _ e := (false, e)

theorem bench_client_id_length : ([0x63] : List UInt8).length < 2 ^ 16 := by decide

/-- A secured connection to a broker with a name of one byte. -/
def benchConnectParams : MQTTAgentConnectParams where
  pcURL := [0x61]
  xFlags := requireTls
  xURLIsIPAddress := false
  usPort := 8883
  clientId := ⟨[0x63], bench_client_id_length⟩
  xSecuredConnection := true
  pvUserData := 7
  pxCallback := some 9
  pcCertificate := none

/-- A connection that has not been used. -/
def benchEndpoint : Endpoint Nat where
  connection := { MQTTBrokerConnection.initial with uxFlags := connectionSecured }
  port := ⟨fun _ => none, [], 1⟩
  outputs := []

/-- On the bench the socket is granted, so the set-up is orderly. -/
theorem setup_connection_orderly_granted :
    OrderlySetup benchEndpoint
      (prvSetupConnection (benchEnvironment true) benchConnectParams benchEndpoint).2
      (prvSetupConnection (benchEnvironment true) benchConnectParams benchEndpoint).1 :=
  (setup_connection_orderly (benchEnvironment true) benchConnectParams benchEndpoint rfl).mpr
    (Or.inr ⟨by decide, by decide⟩)

/-- Without a descriptor `SOCKETS_Socket` reports `NULL`, which is not the invalid socket. -/
theorem setup_connection_no_descriptor :
    ¬ OrderlySetup benchEndpoint
      (prvSetupConnection (benchEnvironment false) benchConnectParams benchEndpoint).2
      (prvSetupConnection (benchEnvironment false) benchConnectParams benchEndpoint).1 := by
  intro h
  have hreported := h.reported 0 (by decide)
  cases hreported

end TivaAws.Agent
