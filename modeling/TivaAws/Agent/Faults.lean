import TivaAws.Agent.SocketOwners

/-!
# Where the MQTT task stops

A failed `configASSERT` and an access through `NULL` end the MQTT task, while the model goes on
(`Endpoint.Faulted`). Neither is undone, and what is done with a socket that is not `NULL` adds none
(`AddsNoFault`). Setting up a connection on a connection without a socket goes through `NULL`
exactly if no socket is granted, since the port reads the answer of the name server without a test
and reports a socket it could not make as `NULL`.
-/

namespace TivaAws.Agent

open Mqtt Sockets Sockets.Port Session

variable {E : Type} {user : Environment E} {w w' w'' : Endpoint E} {s s' : Session (Endpoint E)}
  {outputs : List PortOutput} {xSocket : Nat} {params : MQTTAgentConnectParams}

/-- An access has gone through `NULL`. -/
def NullUsed (outputs : List PortOutput) : Prop := .action (.use (.context 0)) ∈ outputs

/-- An assertion has failed or an access has gone through `NULL`. -/
def Endpoint.Faulted (w : Endpoint E) : Prop :=
  .assertFailed ∈ w.outputs ∨ NullUsed w.port.outputs

/-- A fault stays, and on a connection whose socket is not `NULL` there is none that was not there
before, and its socket is still not `NULL`. -/
structure AddsNoFault (w w' : Endpoint E) : Prop where
  stays : w.Faulted → w'.Faulted
  clean : w.connection.xSocket ≠ 0 → w'.connection.xSocket ≠ 0 ∧ (w'.Faulted → w.Faulted)

theorem AddsNoFault.refl (w : Endpoint E) : AddsNoFault w w := ⟨id, fun h => ⟨h, id⟩⟩

theorem AddsNoFault.trans (hfirst : AddsNoFault w w') (hsecond : AddsNoFault w' w'') :
    AddsNoFault w w'' := by
  refine ⟨fun h => hsecond.stays (hfirst.stays h), fun hnull => ?_⟩
  obtain ⟨hnull', hclean⟩ := hfirst.clean hnull
  obtain ⟨hnull'', hclean'⟩ := hsecond.clean hnull'
  exact ⟨hnull'', fun h => hclean (hclean' h)⟩

/-! ## What adds no fault -/

/-- Appended outputs undo no fault. -/
theorem faulted_appends (happends : Appends w.port outputs w'.port) (hproceeds : Proceeds w w')
    (h : w.Faulted) : w'.Faulted := by
  rcases h with hassert | hused
  · exact Or.inl (hproceeds.asserted.mpr hassert)
  · refine Or.inr ?_
    rw [happends]
    exact List.mem_append_left _ hused

/-- Outputs that go through the socket only add no fault if it is not `NULL`. -/
theorem adds_no_fault (happends : Appends w.port outputs w'.port) (hproceeds : Proceeds w w')
    (hhandle : ∀ handle, .action (.use (.context handle)) ∈ outputs →
      handle = w.connection.xSocket)
    (hsocket : w.connection.xSocket ≠ 0 → w'.connection.xSocket ≠ 0) : AddsNoFault w w' := by
  refine ⟨faulted_appends happends hproceeds, fun hnull => ⟨hsocket hnull, ?_⟩⟩
  rintro (hassert | hused)
  · exact Or.inl (hproceeds.asserted.mp hassert)
  · refine Or.inr ?_
    rw [happends] at hused
    rcases List.mem_append.mp hused with hused | hused
    · exact hused
    · exact absurd (hhandle 0 hused).symm hnull

theorem SameSocket.adds_no_fault (hsame : SameSocket w w') (hproceeds : Proceeds w w') :
    AddsNoFault w w' := by
  have happends : Appends w.port [] w'.port := by
    show w'.port.outputs = w.port.outputs ++ []
    rw [hsame.outputs, List.append_nil]
  refine Agent.adds_no_fault happends hproceeds (fun _ hmem => absurd hmem List.not_mem_nil) ?_
  · rw [hsame.xSocket]
    exact id

/-- Serving the socket adds no fault. -/
theorem serves_adds_no_fault {port : Port E}
    (hserves : ServesSome w.connection.xSocket xSocket w.port port) :
    AddsNoFault w (w.withPort port) := by
  obtain ⟨outputs, hserves⟩ := hserves
  exact adds_no_fault hserves.appends (.of_outputs rfl) (fun _ hmem => hserves.handle hmem) id

theorem close_adds_no_fault (user : Environment E) (w : Endpoint E) :
    AddsNoFault w (prvGracefulSocketClose user w) := by
  obtain ⟨xSocket, hat⟩ := exists_at w.connection.xSocket w.port
  obtain ⟨outputs, happends, -, hhandle, -⟩ := graceful_close_closes user w hat
  refine adds_no_fault happends (.of_outputs rfl) hhandle fun _ => ?_
  exact Nat.succ_ne_zero _

theorem receive_adds_no_fault (user : Environment E) (w : Endpoint E) :
    AddsNoFault w
      (w.onPort (socketsRecv user.toPlatform w.connection.xSocket rxBufferSize 0)).2 := by
  obtain ⟨xSocket, hat⟩ := exists_at w.connection.xSocket w.port
  exact serves_adds_no_fault (serves_recv user.toPlatform hat rxBufferSize 0)

theorem call_adds_no_fault {α : Type} (f : E → α × E) (w : Endpoint E) :
    AddsNoFault w (w.call f).2 :=
  (same_socket_call f w).adds_no_fault (.of_outputs rfl)

theorem send_adds_no_fault (user : Environment E) (pucData : List UInt8) (w : Endpoint E) :
    AddsNoFault w (prvMQTTSendCallback user pucData w).2 := by
  obtain ⟨xSocket, hat⟩ := exists_at w.connection.xSocket w.port
  have hcall := hat.call user.sendRounds
  exact serves_adds_no_fault (hcall.trans
    (serves_send_loop user hcall.at_address pucData (w.call user.sendRounds).1 0))

theorem disconnect_adds_no_fault (user : Environment E) (w : Endpoint E) :
    AddsNoFault w (Agent.prvProcessReceivedDisconnect user w) := by
  unfold Agent.prvProcessReceivedDisconnect
  simp only
  refine AddsNoFault.trans ?_
    ((same_socket_notify_all _ _).adds_no_fault (proceeds_notify_all _ _))
  split_ifs
  · exact ((same_socket_call_user user .disconnect w).adds_no_fault
      (proceeds_call_user user .disconnect w)).trans (close_adds_no_fault user _)
  · exact .refl w

theorem responses_add_no_fault {labels : List MQTTOutput}
    (h : Responses (initParams user) w labels w') : AddsNoFault w w' := by
  induction h with
  | nil => exact .refl _
  | cons hresponds _ ih =>
      refine AddsNoFault.trans ?_ ih
      have hproceeds := (endpoint_response hresponds).proceeds
      cases socket_response hresponds with
      | same _ hsame => exact hsame.adds_no_fault hproceeds
      | event => exact .refl _
      | sent pucData => exact send_adds_no_fault user pucData _
      | closed => exact disconnect_adds_no_fault user _

theorem does_adds_no_fault {op : Op} (h : Does (initParams user) op s s') :
    AddsNoFault s.world s'.world := by
  obtain ⟨labels, hcalls, -⟩ := h
  exact responses_add_no_fault hcalls.responses

/-! ## Setting up -/

theorem open_adds_no_fault (user : Environment E) (params : MQTTAgentConnectParams)
    (ulAddress : UInt32) (w : Endpoint E) :
    AddsNoFault w (openedSocket user params ulAddress w).2 := by
  obtain ⟨xSocket, hat⟩ := exists_at w.connection.xSocket w.port
  obtain ⟨outputs, hserves, -⟩ := serves_open_socket user hat params
    ⟨params.brokerPort, ulAddress⟩ w.connection.secured
  exact serves_adds_no_fault ⟨outputs, hserves⟩

theorem setup_socket_adds_no_fault (user : Environment E) (params : MQTTAgentConnectParams)
    (ulAddress : UInt32) (w : Endpoint E) :
    AddsNoFault w (setupSocket user params ulAddress w).2 := by
  have hopened := open_adds_no_fault user params ulAddress w
  unfold setupSocket
  simp only
  split_ifs
  · exact hopened
  · exact hopened.trans (close_adds_no_fault user _)
  · exact .refl w

/-- A socket that is `NULL` is gone through when it is set up. -/
theorem setup_null_socket (params : MQTTAgentConnectParams) (ulAddress : UInt32)
    (hnull : w.connection.xSocket = 0) : (setupSocket user params ulAddress w).2.Faulted := by
  obtain ⟨xSocket, hat⟩ := exists_at w.connection.xSocket w.port
  obtain ⟨outputs, hserves, hused, -⟩ := serves_open_socket user hat params
    ⟨params.brokerPort, ulAddress⟩ w.connection.secured
  have hopened : (openedSocket user params ulAddress w).2.Faulted := by
    refine Or.inr ?_
    show _ ∈ (openSocket user params _ _ _ w.port).2.outputs
    rw [hserves.appends]
    exact List.mem_append_right _ (hnull ▸ hused)
  have hvalid : w.connection.xSocket ≠ socketsInvalidSocket := by
    rw [hnull]
    exact (Nat.succ_ne_zero _).symm
  unfold setupSocket
  rw [if_pos hvalid]
  simp only
  split_ifs
  · exact hopened
  · exact (close_adds_no_fault user _).stays hopened

/-- The port after a name has been found. -/
def foundPort (user : Environment E) (params : MQTTAgentConnectParams) (port : Port E) : Port E :=
  { port with environment := (user.gethostbyname params.pcURL port.environment).2 }

/-- Once the name is found, the socket is what lwIP and the allocator give. -/
theorem request_socket_found
    (hhost : (user.gethostbyname params.pcURL w.port.environment).1.isSome) :
    (requestSocket user params w).2.connection.xSocket =
        (socketsSocket user.toPlatform (foundPort user params w.port)).1 ∧
      (requestSocket user params w).2.port =
        (socketsSocket user.toPlatform (foundPort user params w.port)).2 := by
  have hfound : (socketsGetHostByName user.toPlatform params.pcURL w.port).2 =
      foundPort user params w.port := get_host_found hhost
  exact ⟨congrArg (fun port => (socketsSocket user.toPlatform port).1) hfound,
    congrArg (fun port => (socketsSocket user.toPlatform port).2) hfound⟩

/-- Without an answer of the name server `NULL` is gone through. -/
theorem request_socket_missing
    (hhost : ¬ (user.gethostbyname params.pcURL w.port.environment).1.isSome) :
    (requestSocket user params w).2.Faulted := by
  obtain ⟨asked, hasked⟩ := socket_appends user.toPlatform
    (socketsGetHostByName user.toPlatform params.pcURL w.port).2
  have hwhole := (get_host_missing hhost).trans hasked
  refine Or.inr ?_
  show _ ∈ (socketsSocket user.toPlatform (socketsGetHostByName _ _ _).2).2.outputs
  rw [hwhole]
  exact List.mem_append_right _ List.mem_cons_self

/-- A set-up that is granted its socket adds no fault. -/
theorem setup_adds_no_fault (hclosed : w.connection.xSocket = socketsInvalidSocket)
    (hgranted : SocketGranted user params w) :
    AddsNoFault w (prvSetupConnection user params w).2 := by
  unfold prvSetupConnection
  rw [if_neg (not_not.mpr hclosed)]
  by_cases hlength : params.pcURL.length ≤ maxDnsNameLength
  · rw [if_pos hlength]
    obtain ⟨hhost, hgrants⟩ := hgranted.resolve_left (Nat.not_lt.mpr hlength)
    obtain ⟨xSocket, hopens⟩ := socket_opens hgrants
    have hrequested : AddsNoFault w (requestSocket user params w).2 := by
      obtain ⟨hsocket, hport⟩ := request_socket_found (w := w) hhost
      have happends : Appends w.port [.action (.acquire (.descriptor xSocket)), .action
          (.acquire (.context (requestSocket user params w).2.connection.xSocket))]
          (requestSocket user params w).2.port := by
        rw [hsocket, hport]
        exact hopens.appends
      refine adds_no_fault happends (.of_outputs rfl) (by simp) fun _ => ?_
      rw [hsocket]
      exact hopens.ne_null
    exact hrequested.trans (setup_socket_adds_no_fault user params _ _)
  · rw [if_neg hlength]
    exact .refl w

/-- A set-up that is not granted a socket goes through `NULL`. -/
theorem setup_faults (hclosed : w.connection.xSocket = socketsInvalidSocket)
    (hrefused : ¬ SocketGranted user params w) :
    (prvSetupConnection user params w).2.Faulted := by
  obtain ⟨hlength, hrefused⟩ := not_or.mp hrefused
  unfold prvSetupConnection
  rw [if_neg (not_not.mpr hclosed), if_pos (Nat.not_lt.mp hlength)]
  by_cases hhost : (user.gethostbyname params.pcURL w.port.environment).1.isSome
  · have hnull := (socket_refused (fun hgrants => hrefused ⟨hhost, hgrants⟩)).1
    refine setup_null_socket params _ ?_
    rw [(request_socket_found hhost).1]
    exact hnull
  · exact (setup_socket_adds_no_fault user params _ _).stays (request_socket_missing hhost)

/-! ## Connect -/

/-- The endpoint with the settings of a Connect. -/
def Endpoint.configured (params : MQTTAgentConnectParams) (w : Endpoint E) : Endpoint E :=
  { w with connection := w.connection.configure params }

/-- What follows the set-up adds no fault. -/
theorem run_connect_after_setup (user : Environment E) (params : MQTTAgentConnectParams)
    (data : MQTTNotificationData) (xTicksToWait : UInt32) (s : Session (Endpoint E)) :
    AddsNoFault (prvSetupConnection user params (s.world.configured params)).2
      (runConnect user params data xTicksToWait s).2.world := by
  have hcases := run_connect_cases user params data xTicksToWait s
  simp only at hcases
  have hconnect : AddsNoFault (prvSetupConnection user params (s.world.configured params)).2
      (mqttConnect (initParams user) (connectParams params data xTicksToWait)
        { s with
          world := (prvSetupConnection user params (s.world.configured params)).2 }).2.world :=
    does_adds_no_fault (s := { s with
      world := (prvSetupConnection user params (s.world.configured params)).2 })
      (does_connect (initParams user) _ _).1
  rcases hcases with ⟨-, hrun⟩ | ⟨-, -, hrun⟩ | ⟨-, -, hrun⟩
  · rw [hrun]
    exact .refl _
  · rw [hrun]
    exact hconnect.trans (close_adds_no_fault user _)
  · rw [hrun]
    exact hconnect

/-- A Connect on a connection without a socket that is granted one adds no fault. -/
theorem run_connect_adds_no_fault (data : MQTTNotificationData) (xTicksToWait : UInt32)
    (hclosed : s.world.connection.xSocket = socketsInvalidSocket)
    (hgranted : SocketGranted user params s.world) :
    AddsNoFault s.world (runConnect user params data xTicksToWait s).2.world := by
  have hsame : SameSocket s.world (s.world.configured params) := ⟨rfl, rfl, rfl⟩
  have hconfigured := hsame.adds_no_fault (.of_outputs rfl)
  have hsetup : AddsNoFault (s.world.configured params) _ :=
    setup_adds_no_fault hclosed hgranted
  exact (hconfigured.trans hsetup).trans (run_connect_after_setup user params data xTicksToWait s)

/-- A Connect on a connection with a socket fails the assertion, and one that is not granted a
socket goes through `NULL`. -/
theorem run_connect_faults (data : MQTTNotificationData) (xTicksToWait : UInt32)
    (h : s.world.connection.xSocket ≠ socketsInvalidSocket ∨
      ¬ SocketGranted user params s.world) :
    (runConnect user params data xTicksToWait s).2.world.Faulted := by
  refine (run_connect_after_setup user params data xTicksToWait s).stays ?_
  by_cases hclosed : (s.world.configured params).connection.xSocket = socketsInvalidSocket
  · exact setup_faults hclosed (h.resolve_left (not_not.mpr hclosed))
  · rw [setup_connection_open user params hclosed]
    exact Or.inl (List.mem_append_right _ (List.mem_singleton_self _))

end TivaAws.Agent
