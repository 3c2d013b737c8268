import TivaAws.Agent.Responses
import TivaAws.Agent.Rounds
import TivaAws.Mqtt.Connection

/-!
# A socket for every session

Between the commands of the MQTT task a connection has a socket exactly if its context is not in
the state NotConnected (`SocketLinked`). The library ends a session in the middle of its operations
and says so by an event, and the callback of the agent closes the socket then. `MQTT_Connect` begins
a session on the socket that the agent has just opened, and the agent closes the socket if it does
not.
-/

namespace TivaAws.Agent

open Mqtt Sockets Session

variable {E : Type} {user : Environment E} {w w' w'' : Endpoint E} {s s' : Session (Endpoint E)}
  {label : MQTTOutput} {labels : List MQTTOutput}

/-! ## What leaves the sockets alone -/

/-- The socket of the connection and what the port has done are as before. -/
structure SameSocket (w w' : Endpoint E) : Prop where
  xSocket : w'.connection.xSocket = w.connection.xSocket
  contexts : w'.port.contexts = w.port.contexts
  outputs : w'.port.outputs = w.port.outputs

theorem SameSocket.refl (w : Endpoint E) : SameSocket w w := ⟨rfl, rfl, rfl⟩

theorem SameSocket.trans (hfirst : SameSocket w w') (hsecond : SameSocket w' w'') :
    SameSocket w w'' :=
  ⟨hsecond.xSocket.trans hfirst.xSocket, hsecond.contexts.trans hfirst.contexts,
    hsecond.outputs.trans hfirst.outputs⟩

theorem same_socket_emit (output : AgentOutput) (w : Endpoint E) : SameSocket w (w.emit output) :=
  ⟨rfl, rfl, rfl⟩

theorem same_socket_call {α : Type} (f : E → α × E) (w : Endpoint E) : SameSocket w (w.call f).2 :=
  ⟨rfl, rfl, rfl⟩

theorem same_socket_notify (data : MQTTNotificationData) (code : MQTTNotifyCode) (uxStatus : Bool)
    (w : Endpoint E) : SameSocket w (prvNotifyRequestingTask data code uxStatus w).2 := by
  unfold prvNotifyRequestingTask
  cases data.xTaskToNotify with
  | none => exact .refl w
  | some task => exact same_socket_emit _ w

theorem same_socket_notify_waiting (x : Fin maxParallelOps) (code : MQTTNotifyCode)
    (uxStatus : Bool) (w : Endpoint E) : SameSocket w (notifyWaiting x code uxStatus w) := by
  refine (same_socket_notify w.connection.xWaitingTasks[x] code uxStatus w).trans ?_
  exact ⟨rfl, rfl, rfl⟩

theorem same_socket_notify_if_waiting (usPacketIdentifier : UInt16) (code : MQTTNotifyCode)
    (uxStatus : Bool) (w : Endpoint E) :
    SameSocket w (notifyIfWaiting usPacketIdentifier code uxStatus w) := by
  unfold notifyIfWaiting
  cases prvRetrieveNotificationData usPacketIdentifier w.connection with
  | none => exact .refl w
  | some x => exact same_socket_notify_waiting x code uxStatus w

theorem same_socket_notify_all (waiting : List (Fin maxParallelOps)) (w : Endpoint E) :
    SameSocket w
      (waiting.foldl (fun w x => notifyWaiting x .clientGotDisconnected false w) w) := by
  induction waiting generalizing w with
  | nil => exact .refl w
  | cons x rest ih =>
      exact (same_socket_notify_waiting x .clientGotDisconnected false w).trans (ih _)

theorem same_socket_call_user (user : Environment E) (event : MQTTAgentEvent) (w : Endpoint E) :
    SameSocket w (callUser user event w).2 := by
  unfold callUser
  cases w.connection.pxCallback with
  | none => exact .refl w
  | some pxCallback => exact (same_socket_emit _ w).trans (same_socket_call _ _)

/-- Only the report of a disconnect does anything to the socket. -/
theorem same_socket_event {event : MQTTEvent} (h : ∀ reason, event ≠ .clientDisconnected reason)
    (w : Endpoint E) : SameSocket w (prvMQTTEventCallback user event w).2 := by
  have hresponse := event_response user event w
  generalize (prvMQTTEventCallback user event w).2 = w' at hresponse ⊢
  cases hresponse with
  | ignored => exact .refl w
  | answered code uxStatus => exact same_socket_notify_if_waiting _ code uxStatus w
  | published data => exact same_socket_call_user user _ w
  | disconnected reason => exact absurd rfl (h reason)

/-- What a call of the library out to the agent comes to for the socket. -/
inductive SocketResponse (user : Environment E) :
    Endpoint E → MQTTOutput → Endpoint E → Prop where
  | same {w w' : Endpoint E} {label : MQTTOutput} : label.isDisconnect = false →
      SameSocket w w' → SocketResponse user w label w'
  | event {w : Endpoint E} {reason : MQTTDisconnectReason} :
      SocketResponse user w (.event (.clientDisconnected reason)) w
  | sent {w : Endpoint E} (pucData : List UInt8) : SocketResponse user w
      (.sent pucData (prvMQTTSendCallback user pucData w).1) (prvMQTTSendCallback user pucData w).2
  | closed {w : Endpoint E} {reason : MQTTDisconnectReason} {result : Bool} :
      SocketResponse user w (.eventCallback (.clientDisconnected reason) result)
        (Agent.prvProcessReceivedDisconnect user w)

theorem socket_response (h : Responds (initParams user) w label w') :
    SocketResponse user w label w' := by
  cases label with
  | obtained handle =>
      obtain ⟨requested, buffer, hget, -⟩ := h
      obtain rfl := congrArg Prod.snd hget
      exact .same rfl (same_socket_call _ w)
  | refused requested =>
      obtain rfl := congrArg Prod.snd h
      exact .same rfl (same_socket_call _ w)
  | returned handle =>
      obtain rfl : w' = _ := h
      exact .same rfl ⟨rfl, rfl, rfl⟩
  | ticks count =>
      obtain ⟨getTicks, hsome, hget⟩ := h
      cases hsome
      obtain rfl := congrArg Prod.snd hget
      exact .same rfl (same_socket_call _ w)
  | sent data count =>
      obtain rfl := congrArg Prod.fst h
      obtain rfl := congrArg Prod.snd h
      exact .sent data
  | eventCallback event result =>
      obtain ⟨callback, hsome, hcall⟩ := h
      cases hsome
      obtain rfl := congrArg Prod.snd hcall
      cases event with
      | clientDisconnected reason => exact .closed
      | _ => exact .same rfl (same_socket_event (fun _ => MQTTEvent.noConfusion) w)
  | publishCallback callback context publish result =>
      obtain rfl := congrArg Prod.snd h
      exact .same rfl (same_socket_call _ w)
  | event event =>
      obtain rfl : w' = w := h
      cases event with
      | clientDisconnected reason => exact .event
      | _ => exact .same rfl (.refl w')
  | taken handle =>
      obtain rfl : w' = w := h
      exact .same rfl (.refl w')
  | access offset count =>
      obtain rfl : w' = w := h
      exact .same rfl (.refl w')
  | handled packet =>
      obtain rfl : w' = w := h
      exact .same rfl (.refl w')

/-! ## The socket in a list of calls -/

/-- The report of a disconnect closes the socket. -/
theorem disconnect_closes_socket (user : Environment E) (w : Endpoint E) :
    (Agent.prvProcessReceivedDisconnect user w).connection.xSocket = socketsInvalidSocket := by
  unfold Agent.prvProcessReceivedDisconnect
  simp only
  rw [(same_socket_notify_all _ _).xSocket]
  by_cases hopen : w.connection.xSocket ≠ socketsInvalidSocket
  · rw [if_pos hopen]
    rfl
  · rw [if_neg hopen]
    exact not_not.mp hopen

theorem SocketResponse.keeps (h : SocketResponse user w label w')
    (hlabel : label.isDisconnect = false) :
    w'.connection.xSocket = w.connection.xSocket := by
  cases h with
  | same _ hsame => exact hsame.xSocket
  | event => rfl
  | sent pucData => rfl
  | closed => cases hlabel

theorem SocketResponse.stays_closed (h : SocketResponse user w label w')
    (hclosed : w.connection.xSocket = socketsInvalidSocket) :
    w'.connection.xSocket = socketsInvalidSocket := by
  cases h with
  | same _ hsame => exact hsame.xSocket.trans hclosed
  | event => exact hclosed
  | sent pucData => exact hclosed
  | closed => exact disconnect_closes_socket user w

/-- Calls that report no disconnect keep the socket. -/
theorem responses_keep_socket (h : Responses (initParams user) w labels w')
    (hquiet : disconnects labels = []) : w'.connection.xSocket = w.connection.xSocket := by
  induction h with
  | nil => rfl
  | cons hresponds _ ih =>
      have hnone := List.filter_eq_nil_iff.mp hquiet
      rw [ih (List.filter_eq_nil_iff.mpr fun other hmem => hnone other
        (List.mem_cons_of_mem _ hmem))]
      refine (socket_response hresponds).keeps ?_
      exact Bool.not_eq_true _ ▸ hnone _ List.mem_cons_self

theorem responses_stay_closed (h : Responses (initParams user) w labels w')
    (hclosed : w.connection.xSocket = socketsInvalidSocket) :
    w'.connection.xSocket = socketsInvalidSocket := by
  induction h with
  | nil => exact hclosed
  | cons hresponds _ ih => exact ih ((socket_response hresponds).stays_closed hclosed)

/-- Calls that report a disconnect close the socket. -/
theorem responses_close_socket (h : Responses (initParams user) w labels w')
    (hreports : ReportsDisconnect (initParams user) labels) :
    w'.connection.xSocket = socketsInvalidSocket := by
  obtain ⟨reason, result, hreports⟩ := hreports
  have hreported : .eventCallback (.clientDisconnected reason) result ∈ disconnects labels := by
    rw [hreports]
    exact List.mem_cons_of_mem _ List.mem_cons_self
  have hmem := (List.mem_filter.mp hreported).1
  clear hreports hreported
  induction h with
  | nil => exact absurd hmem List.not_mem_nil
  | cons hresponds hrest ih =>
      rcases List.mem_cons.mp hmem with hfirst | hlater
      · subst hfirst
        refine responses_stay_closed hrest ?_
        cases socket_response hresponds with
        | same hlabel _ => cases hlabel
        | closed => exact disconnect_closes_socket user _
      · exact ih hlater

/-- Nothing is sent without a socket. -/
theorem send_without_socket (pucData : List UInt8)
    (hclosed : w.connection.xSocket = socketsInvalidSocket) :
    (prvMQTTSendCallback user pucData w).1 = 0 := by
  show (sendLoop user w.connection.xSocket pucData _ 0 _).1 = 0
  rw [hclosed]
  generalize (w.call user.sendRounds).1 = rounds
  cases rounds with
  | zero => rfl
  | succ rounds =>
      unfold sendLoop
      split_ifs
      · rfl
      · rfl

theorem responses_send_nothing (h : Responses (initParams user) w labels w')
    (hclosed : w.connection.xSocket = socketsInvalidSocket) {pucData : List UInt8} {count : Nat}
    (hmem : .sent pucData count ∈ labels) : count = 0 := by
  induction h with
  | nil => exact absurd hmem List.not_mem_nil
  | cons hresponds _ ih =>
      have hresponse := socket_response hresponds
      rcases List.mem_cons.mp hmem with hfirst | hlater
      · subst hfirst
        rw [← send_without_socket pucData hclosed]
        exact (congrArg Prod.fst hresponds).symm
      · exact ih (hresponse.stays_closed hclosed) hlater

/-! ## Beginning a session -/

/-- `MQTT_Connect` on a context that is not connected has begun a session with a packet that the
send function has accepted, or it has failed and the context is still not connected. -/
inductive ConnectOutcome {W : Type} (params : MQTTInitParams W) (start : Session W) :
    MQTTReturnCode × Session W → Prop where
  | failed {returnCode finish} : returnCode ≠ .success →
      finish.context.connectionState = .notConnected →
      ConnectOutcome params start (returnCode, finish)
  | begun {finish} (calls : List MQTTOutput) (packet : List UInt8) :
      finish.context.connectionState = .connectionInProgress → Calls params start calls finish →
      packet ≠ [] → .sent packet packet.length ∈ calls →
      ConnectOutcome params start (.success, finish)

theorem connect_outcome {W : Type} (user : MQTTInitParams W) (params : MQTTConnectParams)
    (s : Session W) (hstate : s.context.connectionState = .notConnected) :
    ConnectOutcome user s (mqttConnect user params s) := by
  unfold mqttConnect
  simp only [hstate]
  have houtcome := submit_outcome user params.timeoutTicks params.packetIdentifier
    (.connect params) (fun _ h => h) true (fun _ => rfl)
    (s.update fun context =>
      { context with
        keepAliveActualIntervalTicks := params.keepAliveActualIntervalTicks
        pingRequestTimeoutTicks := params.pingRequestTimeoutTicks }) (Or.inl ⟨trivial, hstate⟩)
  generalize submitPacket user params.remainingLength params.timeoutTicks params.packetIdentifier
    params.write true _ = sent at houtcome ⊢
  cases houtcome with
  | failed hcode _ hcontext =>
      rw [if_pos hcode]
      refine .failed hcode ?_
      rw [hcontext]
      exact hstate
  | pending buffer t t' _ hholds hcalls _ =>
      rw [if_neg (by simp)]
      obtain ⟨controlByte, field, body, hpacket, -⟩ :=
        hholds.framed (connect_writes_packet params)
      refine .begun _ buffer.packet rfl (hcalls.of_update.update _) ?_ ?_
      · rw [hpacket]
        exact List.cons_ne_nil _ _
      · exact List.mem_cons_of_mem _ (List.mem_append_right _ List.mem_cons_self)
  | gone t' hacknowledged => cases hacknowledged

/-- A session has begun on a socket. -/
theorem connect_outcome_socket {connected : MQTTReturnCode × Session (Endpoint E)}
    (h : ConnectOutcome (initParams user) s connected) (hsuccess : connected.1 = .success) :
    s.world.connection.xSocket ≠ socketsInvalidSocket := by
  intro hclosed
  cases h with
  | failed hcode => exact hcode hsuccess
  | begun labels packet _ hcalls hpacket hsent =>
      have hnothing := responses_send_nothing hcalls.responses hclosed hsent
      exact hpacket (List.length_eq_zero_iff.mp hnothing)

/-- A connection that had no socket has none either if `prvSetupConnection` fails. -/
theorem setup_connection_failed (params : MQTTAgentConnectParams)
    (hclosed : w.connection.xSocket = socketsInvalidSocket)
    (hfailed : (prvSetupConnection user params w).1 = false) :
    (prvSetupConnection user params w).2.connection.xSocket = socketsInvalidSocket := by
  unfold prvSetupConnection at hfailed ⊢
  simp only [hclosed, ne_eq, not_true_eq_false, if_false] at hfailed ⊢
  by_cases hlength : params.pcURL.length ≤ maxDnsNameLength
  · rw [if_pos hlength] at hfailed ⊢
    unfold setupSocket at hfailed ⊢
    by_cases hopen : (requestSocket user params w).2.connection.xSocket ≠ socketsInvalidSocket
    · rw [if_pos hopen] at hfailed ⊢
      simp only at hfailed ⊢
      split_ifs at hfailed ⊢ with hopened
      · exact absurd (hopened.symm.trans hfailed) (by simp)
      · rfl
    · rw [if_neg hopen] at hfailed
      cases hfailed
  · rw [if_neg hlength]
    exact hclosed

/-! ## Sockets and sessions -/

/-- There is a socket exactly if there is a session. -/
def SocketLinked (s : Session (Endpoint E)) : Prop :=
  s.world.connection.xSocket = socketsInvalidSocket ↔ s.context.connectionState = .notConnected

theorem SocketLinked.congr (h : SocketLinked s)
    (hsocket : s'.world.connection.xSocket = s.world.connection.xSocket)
    (hcontext : s'.context = s.context) : SocketLinked s' := by
  unfold SocketLinked
  rw [hsocket, hcontext]
  exact h

/-- An operation other than `MQTT_Connect` ends a session together with its socket. -/
theorem SocketLinked.does {op : Op} (h : SocketLinked s) (hop : ¬ op.Connects)
    (hdoes : Does (initParams user) op s s') : SocketLinked s' := by
  obtain ⟨labels, hcalls, hsteps⟩ := hdoes
  cases steps_connection_change hsteps with
  | same hsame hquiet =>
      unfold SocketLinked
      rw [responses_keep_socket hcalls.responses hquiet, hsame]
      exact h
  | opened hconnects => exact absurd hconnects hop
  | closed _ _ hclosed hreports =>
      exact iff_of_true (responses_close_socket hcalls.responses hreports) hclosed

theorem connects_keep_socket {params : MQTTConnectParams}
    (h : Does (initParams user) (.connect params) s s') :
    s'.world.connection.xSocket = s.world.connection.xSocket := by
  obtain ⟨labels, hcalls, hsteps⟩ := h
  cases steps_connection_change hsteps with
  | same _ hquiet => exact responses_keep_socket hcalls.responses hquiet
  | opened _ _ hquiet => exact responses_keep_socket hcalls.responses hquiet
  | closed hop => exact absurd trivial hop

/-- The three ways in which `prvInitiateMQTTConnect` goes on after the data is stored. -/
theorem run_connect_cases (user : Environment E) (params : MQTTAgentConnectParams)
    (data : MQTTNotificationData) (xTicksToWait : UInt32) (s : Session (Endpoint E)) :
    let start := onEndpoint (fun w => { w with connection := w.connection.configure params }) s
    let setup := { start with world := (prvSetupConnection user params start.world).2 }
    let connected := mqttConnect (initParams user) (connectParams params data xTicksToWait) setup
    (prvSetupConnection user params start.world).1 = false ∧
        runConnect user params data xTicksToWait s = (false, setup) ∨
      (prvSetupConnection user params start.world).1 = true ∧ connected.1 ≠ .success ∧
        runConnect user params data xTicksToWait s =
          (false, onEndpoint (prvGracefulSocketClose user) connected.2) ∨
      (prvSetupConnection user params start.world).1 = true ∧ connected.1 = .success ∧
        runConnect user params data xTicksToWait s = (true, connected.2) := by
  intro start setup connected
  unfold runConnect
  by_cases hsetup : (prvSetupConnection user params start.world).1 = true
  · right
    by_cases hconnected : connected.1 = .success
    · right
      refine ⟨hsetup, hconnected, ?_⟩
      show (if (prvSetupConnection user params start.world).1 = true then
        (if connected.1 ≠ .success then _ else _) else _) = _
      rw [if_pos hsetup, if_neg (not_not.mpr hconnected)]
    · left
      refine ⟨hsetup, hconnected, ?_⟩
      show (if (prvSetupConnection user params start.world).1 = true then
        (if connected.1 ≠ .success then _ else _) else _) = _
      rw [if_pos hsetup, if_pos hconnected]
  · left
    refine ⟨Bool.not_eq_true _ ▸ hsetup, ?_⟩
    show (if (prvSetupConnection user params start.world).1 = true then _ else _) = _
    rw [if_neg hsetup]

/-- A connection that has a socket is not set up again. -/
theorem setup_connection_open (user : Environment E) (params : MQTTAgentConnectParams)
    (hopen : w.connection.xSocket ≠ socketsInvalidSocket) :
    prvSetupConnection user params w = (false, w.emit .assertFailed) :=
  if_pos hopen

theorem SocketLinked.run_connect (h : SocketLinked s) (params : MQTTAgentConnectParams)
    (data : MQTTNotificationData) (xTicksToWait : UInt32) :
    SocketLinked (runConnect user params data xTicksToWait s).2 := by
  have hcases := run_connect_cases user params data xTicksToWait s
  simp only at hcases
  generalize hstart : onEndpoint (fun w =>
    { w with connection := w.connection.configure params }) s = start at hcases
  have hlinked : SocketLinked start := by
    subst hstart
    exact h
  clear hstart
  by_cases hclosed : start.world.connection.xSocket = socketsInvalidSocket
  · have hidle := hlinked.mp hclosed
    generalize hsetup : ({ start with world := (prvSetupConnection user params start.world).2 } :
      Session (Endpoint E)) = setup at hcases
    have hstate : setup.context.connectionState = .notConnected := by
      subst hsetup
      exact hidle
    have houtcome := connect_outcome (initParams user) (connectParams params data xTicksToWait)
      setup hstate
    rcases hcases with ⟨hfailed, hrun⟩ | ⟨-, hcode, hrun⟩ | ⟨-, hsuccess, hrun⟩
    · rw [hrun]
      subst hsetup
      exact iff_of_true (setup_connection_failed params hclosed hfailed) hidle
    · rw [hrun]
      refine iff_of_true rfl ?_
      show (mqttConnect _ _ setup).2.context.connectionState = .notConnected
      generalize mqttConnect _ _ setup = connected at hcode houtcome ⊢
      cases houtcome with
      | failed _ hfailed => exact hfailed
      | begun => exact absurd rfl hcode
    · rw [hrun]
      have hsocket := connect_outcome_socket houtcome hsuccess
      rw [← connects_keep_socket (does_connect (initParams user) _ setup).1] at hsocket
      refine iff_of_false hsocket ?_
      show (mqttConnect _ _ setup).2.context.connectionState ≠ .notConnected
      generalize mqttConnect _ _ setup = connected at hsuccess houtcome ⊢
      cases houtcome with
      | failed hcode => exact absurd hsuccess hcode
      | begun _ _ hbegun =>
          rw [hbegun]
          exact MQTTConnectionState.noConfusion
  · have hassert := setup_connection_open user params hclosed
    rw [hassert] at hcases
    rcases hcases with ⟨-, hrun⟩ | ⟨habsurd, -⟩ | ⟨habsurd, -⟩
    · rw [hrun]
      exact hlinked
    · cases habsurd
    · cases habsurd

/-! ## Commands -/

/-- What the commands other than Connect go through keeps a property of the session. -/
structure KeptByCommands (user : Environment E) (K : Session (Endpoint E) → Prop) : Prop where
  same : ∀ s s', SameSocket s.world s'.world → Proceeds s.world s'.world →
    s'.context = s.context → K s → K s'
  executes : ∀ op s s', ¬ op.Connects → K s → execute (initParams user) s op = some s' → K s'

variable {K : Session (Endpoint E) → Prop}

theorem KeptByCommands.notify (hkept : KeptByCommands user K) (hstart : K s)
    (data : MQTTNotificationData) (code : MQTTNotifyCode) (uxStatus : Bool) :
    K (onEndpoint (fun w => (prvNotifyRequestingTask data code uxStatus w).2) s) :=
  hkept.same s _ (same_socket_notify data code uxStatus s.world)
    (proceeds_notify data code uxStatus s.world) rfl hstart

theorem KeptByCommands.finish (hkept : KeptByCommands user K) (hstart : K s)
    (data : MQTTNotificationData) (stored : Option (Fin maxParallelOps)) (code : MQTTNotifyCode)
    (xStatus : Bool) : K (finishCommand data stored code xStatus s) := by
  unfold finishCommand
  split_ifs
  · exact hstart
  · cases stored with
    | none => exact hkept.notify hstart data code false
    | some x =>
        exact hkept.same
          (onEndpoint (fun w => (prvNotifyRequestingTask data code false w).2) s) _
          ⟨rfl, rfl, rfl⟩ (.of_outputs rfl) rfl (hkept.notify hstart data code false)

/-- Storing the notification data changes the waiting tasks only. -/
theorem same_socket_store (data : MQTTNotificationData) (s : Session (Endpoint E)) :
    SameSocket s.world (storeNotification data s).2.world := by
  unfold storeNotification prvStoreNotificationData
  split
  · exact .refl s.world
  · exact ⟨rfl, rfl, rfl⟩

theorem proceeds_store (data : MQTTNotificationData) (s : Session (Endpoint E)) :
    Proceeds s.world (storeNotification data s).2.world := by
  unfold storeNotification prvStoreNotificationData
  split
  · exact .refl s.world
  · exact .of_outputs rfl

theorem KeptByCommands.initiate (hkept : KeptByCommands user K) (hstart : K s)
    (data : MQTTNotificationData) (code : MQTTNotifyCode)
    {run : Session (Endpoint E) → Bool × Session (Endpoint E)}
    (hrun : K (storeNotification data s).2 → K (run (storeNotification data s).2).2) :
    K (initiate data code run s) := by
  have hstored : K (storeNotification data s).2 :=
    hkept.same s _ (same_socket_store data s) (proceeds_store data s) rfl hstart
  unfold Agent.initiate
  simp only
  split_ifs
  · exact hkept.finish (hrun hstored) _ _ _ _
  · exact hkept.finish hstored _ _ _ _

theorem KeptByCommands.publish (hkept : KeptByCommands user K) (hstart : K s)
    (params : MQTTAgentPublishParams) (data : MQTTNotificationData) (xTicksToWait : UInt32) :
    K (prvInitiateMQTTPublish user params data xTicksToWait s) := by
  have hpublish : ∀ s, K s →
      K (mqttPublish (initParams user) (publishParams params data xTicksToWait) s).2 :=
    fun s hs => hkept.executes (.publish (publishParams params data xTicksToWait)) s _ id hs rfl
  unfold prvInitiateMQTTPublish
  simp only
  split_ifs
  · exact hkept.initiate hstart _ _ (hpublish _)
  · exact hkept.notify (hpublish s hstart) _ _ _
  · exact hkept.finish (hpublish s hstart) _ _ _ _

/-- A command keeps what the other commands keep, if a Connect does. -/
theorem process_command_session (hkept : KeptByCommands user K) (command : MQTTEventData)
    (hstart : K s)
    (hconnect : ∀ params xTicksToWait s', command.xEventType = .connectRequest params →
      (s.world.call (user.checkForTimeOut command.xTicksToWait)).1 = some xTicksToWait →
      s'.context = s.context →
      s'.world.port = (s.world.call (user.checkForTimeOut command.xTicksToWait)).2.port →
      K s' → K (runConnect user params command.xNotificationData xTicksToWait s').2) :
    K (processCommand user command s) := by
  have hchecked : K { s with
      world := (s.world.call (user.checkForTimeOut command.xTicksToWait)).2 } :=
    hkept.same s _ (same_socket_call _ s.world) (.of_outputs rfl) rfl hstart
  unfold processCommand
  simp only
  split
  next => exact hkept.notify hchecked _ _ _
  next xTicksToWait hticks =>
    split
    next params hevent =>
      refine hkept.initiate hchecked _ _ (hconnect params xTicksToWait _ hevent hticks rfl ?_)
      unfold storeNotification prvStoreNotificationData
      split
      · rfl
      · rfl
    next =>
      unfold prvInitiateMQTTDisconnect
      simp only
      have hdisconnected := hkept.executes .disconnect _ _ id hchecked rfl
      split_ifs
      · exact hkept.notify hdisconnected _ _ _
      · exact hkept.notify hdisconnected _ _ _
    next params _ =>
      exact hkept.initiate hchecked _ _ fun hstored => hkept.executes
        (.subscribe (subscribeParams params command.xNotificationData xTicksToWait)) _ _ id
        hstored rfl
    next params _ =>
      exact hkept.initiate hchecked _ _ fun hstored => hkept.executes
        (.unsubscribe (unsubscribeParams params command.xNotificationData xTicksToWait)) _ _ id
        hstored rfl
    next params _ => exact hkept.publish hchecked params _ _
    next => exact hchecked

/-! ## Rounds -/

/-- What holds of a session whenever the task turns to its connection. -/
structure LinkedSession (s : Session (Endpoint E)) : Prop where
  base : BaseInvariant s.context
  linked : SocketLinked s

theorem linked_kept_by_commands (user : Environment E) : KeptByCommands user LinkedSession where
  same s s' hsame _ hcontext h := ⟨hcontext ▸ h.base, h.linked.congr hsame.xSocket hcontext⟩
  executes op s s' hop h hexecute := by
    obtain ⟨hdoes, hbase⟩ := executed (initParams user) op h.base hexecute
    exact ⟨hbase, h.linked.does hop hdoes⟩

theorem Manages.not_connects {op : Op} (h : Manages op) : ¬ op.Connects := by
  cases op with
  | connect params => exact absurd h id
  | _ => exact id

theorem linked_kept_by_managing (user : Environment E) : KeptByManaging user SocketLinked where
  receives _ h _ := h
  ticks _ h := h
  does _ _ _ hop _ h hdoes := h.does hop.not_connects hdoes

theorem LinkedSession.run_connect (h : LinkedSession s) (params : MQTTAgentConnectParams)
    (data : MQTTNotificationData) (xTicksToWait : UInt32) :
    LinkedSession (runConnect user params data xTicksToWait s).2 := by
  refine ⟨?_, h.linked.run_connect params data xTicksToWait⟩
  have hcases := run_connect_cases user params data xTicksToWait s
  simp only at hcases
  generalize hsetup : (Session.mk _ _ _ : Session (Endpoint E)) = setup at hcases
  have hbase : BaseInvariant setup.context := by
    subst hsetup
    exact h.base
  have hconnected :=
    (executed (initParams user) (.connect (connectParams params data xTicksToWait)) hbase
    (show execute (initParams user) setup _ = some _ from rfl)).2
  rcases hcases with ⟨-, hrun⟩ | ⟨-, -, hrun⟩ | ⟨-, -, hrun⟩
  · rw [hrun]
    exact hbase
  · rw [hrun]
    exact hconnected
  · rw [hrun]
    exact hconnected

/-- Every connection of the agent has a socket exactly if it has a session. -/
def MQTTAgent.Linked (agent : MQTTAgent E) : Prop :=
  ∀ broker, LinkedSession (agent.session broker)

/-- Doing something in the session of one connection leaves the others alone. -/
theorem MQTTAgent.Linked.store {agent : MQTTAgent E} (h : agent.Linked) {broker : Fin maxBrokers}
    (hsession : LinkedSession s) : (agent.store broker s).Linked := by
  intro other
  unfold MQTTAgent.session MQTTAgent.store
  by_cases hother : other = broker
  · subst hother
    simp only [Function.update_self]
    exact ⟨hsession.base, hsession.linked⟩
  · simp only [Function.update_of_ne hother]
    exact ⟨(h other).base, (h other).linked⟩

theorem linked_initial (memory : Fin maxBrokers → MQTTContext) (environment : E) :
    (MQTTAgent.initial memory environment).Linked :=
  fun broker => ⟨base_invariant_init (memory broker), iff_of_true rfl rfl⟩

theorem linked_kept_by_connections (user : Environment E) :
    KeptByConnections user MQTTAgent.Linked := by
  intro agent broker h
  obtain ⟨received, hreceived, hbase, hlinked⟩ :=
    manage_session (linked_kept_by_managing user) (h broker).base (h broker).linked
  exact ⟨received, hreceived, h.store ⟨hbase, hlinked⟩⟩

/-- A command leaves sockets and sessions together. -/
theorem MQTTAgent.Linked.processed {agent : MQTTAgent E} (h : agent.Linked) (user : Environment E)
    (command : MQTTEventData) : (agent.command user command).Linked := by
  have hreceived : (agent.receive command.xNotificationData).Linked :=
    fun broker => ⟨(h broker).base, (h broker).linked⟩
  refine hreceived.store (process_command_session (linked_kept_by_commands user) command
    (hreceived command.uxBrokerNumber) ?_)
  exact fun params xTicksToWait s' _ _ _ _ hlinked => hlinked.run_connect params _ xTicksToWait

/-- A round of the task always returns to the queue, and sockets and sessions still go together. -/
theorem MQTTAgent.Linked.step {agent : MQTTAgent E} (h : agent.Linked) (user : Environment E)
    (received : Option MQTTEventData) :
    ∃ agent', agentStep user agent received = some agent' ∧ agent'.Linked :=
  task_round_preserves (linked_kept_by_connections user) (fun _ => h) fun command _ =>
    h.processed user command

end TivaAws.Agent
