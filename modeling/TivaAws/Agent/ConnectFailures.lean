import TivaAws.Agent.Faults
import TivaAws.Mqtt.Replay

/-!
# Connects that fail

Whatever fails once the MQTT task has the socket for a Connect, the task that has asked is told, and
the connection is left without a socket and a session. But the request is not checked beforehand:
`prvInitiateMQTTConnect` stores the user data, the callback and the flags, and `prvSetupConnection`
asserts then that there is no socket. And a socket that is not granted is not noticed, so that the
port goes through `NULL`. So this holds exactly as long as every Connect finds its connection
without a socket and is granted one, unless it is refused before it gets there.
-/

namespace TivaAws.Agent

open Mqtt Sockets Session Table Runs

variable {E : Type} {user : Environment E} {w : Endpoint E} {s s' : Session (Endpoint E)}
  {data : MQTTNotificationData} {params : MQTTAgentConnectParams} {command : MQTTEventData}
  {agent agent' : MQTTAgent E} {received : Option MQTTEventData}

/-! ## What is promised -/

/-- Neither the socket nor the callback, the user data or the flags have changed. -/
structure KeepsSettings (connection connection' : MQTTBrokerConnection) : Prop where
  xSocket : connection'.xSocket = connection.xSocket
  pxCallback : connection'.pxCallback = connection.pxCallback
  pvUserData : connection'.pvUserData = connection.pvUserData
  uxFlags : connection'.uxFlags = connection.uxFlags

/-- The task that has asked is told of the failure, and the connection is consistent: it is as
before if it had a socket, and it has neither a socket nor a session otherwise. -/
structure ConnectRefused (data : MQTTNotificationData) (s s' : Session (Endpoint E)) : Prop where
  reported : ∀ task ∈ data.xTaskToNotify, ∃ earlier reason,
    s'.world.outputs = s.world.outputs ++ earlier ++ [.notified task (data.outcome reason false)]
  kept : s.world.connection.xSocket ≠ socketsInvalidSocket →
    KeepsSettings s.world.connection s'.world.connection ∧ s'.context = s.context
  closed : s.world.connection.xSocket = socketsInvalidSocket →
    s'.world.connection.xSocket = socketsInvalidSocket ∧
      s'.context.connectionState = .notConnected

/-- The session of a command once it is checked whether its time is up. -/
def checkedSession (user : Environment E) (command : MQTTEventData) (s : Session (Endpoint E)) :
    Session (Endpoint E) :=
  { s with world := (s.world.call (user.checkForTimeOut command.xTicksToWait)).2 }

/-- The time of a Connect is not up, there is an entry for its notification data, and
`prvInitiateMQTTConnect` does not fail. -/
def ConnectSucceeds (user : Environment E) (params : MQTTAgentConnectParams)
    (command : MQTTEventData) (s : Session (Endpoint E)) : Prop :=
  ∃ xTicksToWait,
    (s.world.call (user.checkForTimeOut command.xTicksToWait)).1 = some xTicksToWait ∧
      (storeNotification command.xNotificationData (checkedSession user command s)).1.isSome ∧
      (runConnect user params command.xNotificationData xTicksToWait
        (storeNotification command.xNotificationData (checkedSession user command s)).2).1 = true

/-- A Connect that does not succeed is refused. -/
def FailsSafely (user : Environment E) (agent : MQTTAgent E) (received : Option MQTTEventData) :
    Prop :=
  ∀ command ∈ received, ∀ params, command.xEventType = .connectRequest params →
    let before := (agent.receive command.xNotificationData).session command.uxBrokerNumber
    ¬ ConnectSucceeds user params command before →
      ConnectRefused command.xNotificationData before (processCommand user command before)

/-- The time of the command is up, or there is no free entry of `xWaitingTasks`, or it finds its
connection without a socket and is granted one. -/
def ConnectGranted (user : Environment E) (params : MQTTAgentConnectParams)
    (command : MQTTEventData) (s : Session (Endpoint E)) : Prop :=
  (s.world.call (user.checkForTimeOut command.xTicksToWait)).1 = none ∨
    (∀ x : Fin maxParallelOps,
      (getElem s.world.connection.xWaitingTasks x x.isLt).xTaskToNotify ≠ none) ∨
    s.world.connection.xSocket = socketsInvalidSocket ∧
      SocketGranted user params (checkedSession user command s).world

/-- Every Connect that is not refused before it gets to the socket is granted a new one. -/
def ConnectsGranted (user : Environment E) (agent : MQTTAgent E)
    (received : Option MQTTEventData) : Prop :=
  ∀ command ∈ received, ∀ params, command.xEventType = .connectRequest params →
    ConnectGranted user params command (agent.session command.uxBrokerNumber)

/-- An assertion has failed or an access has gone through `NULL`, so the task does not go on. -/
def MQTTAgent.Faulted (agent : MQTTAgent E) : Prop :=
  .assertFailed ∈ agent.outputs ∨ NullUsed agent.port.outputs

/-! ## The way of a Connect -/

/-- A command whose time is up is finished without its data being stored. -/
theorem process_timed_out
    (h : (s.world.call (user.checkForTimeOut command.xTicksToWait)).1 = none) :
    processCommand user command s =
      finishCommand command.xNotificationData none .operationTimedOut false
        (checkedSession user command s) := by
  unfold processCommand
  simp only [h]
  rfl

theorem process_connect {xTicksToWait : UInt32}
    (hevent : command.xEventType = .connectRequest params)
    (h : (s.world.call (user.checkForTimeOut command.xTicksToWait)).1 = some xTicksToWait) :
    processCommand user command s =
      prvInitiateMQTTConnect user params command.xNotificationData xTicksToWait
        (checkedSession user command s) := by
  unfold processCommand
  simp only [h, hevent]
  rfl

/-- Without a free entry the command is finished at once. -/
theorem initiate_full (code : MQTTNotifyCode)
    (run : Session (Endpoint E) → Bool × Session (Endpoint E))
    (h : ∀ x : Fin maxParallelOps,
      (getElem s.world.connection.xWaitingTasks x x.isLt).xTaskToNotify ≠ none) :
    initiate data code run s = finishCommand data none code false s := by
  have hnone : firstIndex (fun entry => entry.xTaskToNotify.isNone)
      s.world.connection.xWaitingTasks = none := by
    refine firstIndex_eq_none_iff.mpr fun x => ?_
    rw [Option.isNone_eq_false_iff, Option.isSome_iff_ne_none]
    exact h x
  unfold Agent.initiate storeNotification prvStoreNotificationData
  rw [hnone]
  rfl

/-- With a free entry the notification data is stored in one, and the operation is run. -/
theorem initiate_free (data : MQTTNotificationData) (code : MQTTNotifyCode)
    (run : Session (Endpoint E) → Bool × Session (Endpoint E))
    (h : ¬ ∀ x : Fin maxParallelOps,
      (getElem s.world.connection.xWaitingTasks x x.isLt).xTaskToNotify ≠ none) :
    ∃ x start, start.context = s.context ∧ SameSocket s.world start.world ∧
      Proceeds s.world start.world ∧ start.world.port = s.world.port ∧
      storeNotification data s = (some x, start) ∧
      initiate data code run s = finishCommand data (some x) code (run start).1 (run start).2 := by
  obtain ⟨free, hfree⟩ := not_forall_not.mp h
  have hisnone : s.world.connection.xWaitingTasks[free].xTaskToNotify.isNone = true := by
    rw [hfree]
    rfl
  obtain ⟨x, hx⟩ := firstIndex_isSome
    (p := fun entry : MQTTNotificationData => entry.xTaskToNotify.isNone) hisnone
  have hstored : storeNotification data s =
      (some x, onEndpoint (fun w => w.setWaiting x data) s) := by
    unfold storeNotification prvStoreNotificationData
    rw [hx]
    rfl
  refine ⟨x, onEndpoint (fun w => w.setWaiting x data) s, rfl, ⟨rfl, rfl, rfl⟩, .of_outputs rfl,
    rfl, hstored, ?_⟩
  unfold Agent.initiate
  rw [hstored]
  rfl

/-- A command that has failed tells its task last. -/
theorem finish_reported (data : MQTTNotificationData) (stored : Option (Fin maxParallelOps))
    (code : MQTTNotifyCode) (h : Proceeds w s.world) :
    ∀ task ∈ data.xTaskToNotify, ∃ earlier reason,
      (finishCommand data stored code false s).world.outputs =
        w.outputs ++ earlier ++ [.notified task (data.outcome reason false)] := by
  intro task htask
  obtain ⟨earlier, houtputs, -⟩ := h
  refine ⟨earlier, code, ?_⟩
  have hnotified : (prvNotifyRequestingTask data code false s.world).2.outputs =
      w.outputs ++ earlier ++ [.notified task (data.outcome code false)] := by
    unfold prvNotifyRequestingTask
    rw [Option.mem_def.mp htask, ← houtputs]
    rfl
  cases stored with
  | none => exact hnotified
  | some x => exact hnotified

/-- The end of a command leaves everything but the waiting tasks alone. -/
theorem finish_keeps (data : MQTTNotificationData) (s : Session (Endpoint E))
    (stored : Option (Fin maxParallelOps)) (code : MQTTNotifyCode) (xStatus : Bool) :
    KeepsSettings s.world.connection (finishCommand data stored code xStatus s).world.connection ∧
      (finishCommand data stored code xStatus s).context = s.context := by
  have hnotify : (prvNotifyRequestingTask data code false s.world).2.connection =
      s.world.connection := by
    unfold prvNotifyRequestingTask
    split
    · rfl
    · rfl
  unfold finishCommand
  split_ifs
  · exact ⟨⟨rfl, rfl, rfl, rfl⟩, rfl⟩
  · cases stored with
    | none =>
        refine ⟨?_, rfl⟩
        show KeepsSettings s.world.connection
          (prvNotifyRequestingTask data code false s.world).2.connection
        rw [hnotify]
        exact ⟨rfl, rfl, rfl, rfl⟩
    | some x =>
        refine ⟨?_, rfl⟩
        show KeepsSettings s.world.connection
          ((prvNotifyRequestingTask data code false s.world).2.setWaiting x _).connection
        unfold Endpoint.setWaiting
        rw [hnotify]
        exact ⟨rfl, rfl, rfl, rfl⟩

/-- A Connect that is refused before anything is stored. -/
theorem refused_beforehand (h : LinkedSession s) (command : MQTTEventData)
    (code : MQTTNotifyCode) :
    ConnectRefused data s (finishCommand data none code false (checkedSession user command s)) := by
  obtain ⟨hkeeps, hcontext⟩ := finish_keeps data (checkedSession user command s) none code false
  have hproceeds : Proceeds s.world (checkedSession user command s).world := .of_outputs rfl
  refine ⟨finish_reported data none code hproceeds, fun _ => ⟨hkeeps, hcontext⟩, fun hclosed => ?_⟩
  refine ⟨hkeeps.xSocket.trans hclosed, ?_⟩
  rw [hcontext]
  exact h.linked.mp hclosed

/-! ## Running a Connect -/

/-- Setting up a connection that has no socket fails no assertion. -/
theorem setup_proceeds (params : MQTTAgentConnectParams)
    (hclosed : w.connection.xSocket = socketsInvalidSocket) :
    Proceeds w (prvSetupConnection user params w).2 := by
  unfold prvSetupConnection
  rw [if_neg (not_not.mpr hclosed)]
  split_ifs
  · unfold setupSocket
    simp only
    split_ifs
    · exact .of_outputs rfl
    · exact .of_outputs rfl
    · exact .of_outputs rfl
  · exact .refl w

theorem run_connect_proceeds (params : MQTTAgentConnectParams) (data : MQTTNotificationData)
    (xTicksToWait : UInt32) (hclosed : s.world.connection.xSocket = socketsInvalidSocket) :
    Proceeds s.world (runConnect user params data xTicksToWait s).2.world := by
  have hcases := run_connect_cases user params data xTicksToWait s
  simp only at hcases
  have hsetup : Proceeds s.world (prvSetupConnection user params
      { s.world with connection := s.world.connection.configure params }).2 :=
    Proceeds.trans (.of_outputs rfl) (setup_proceeds params hclosed)
  have hconnect : ∀ start : Session (Endpoint E), Proceeds start.world (mqttConnect
      (initParams user) (connectParams params data xTicksToWait) start).2.world := by
    intro start
    obtain ⟨labels, hcalls, -⟩ := (does_connect (initParams user) _ start).1
    exact responses_proceed hcalls.responses
  rcases hcases with ⟨-, hrun⟩ | ⟨-, -, hrun⟩ | ⟨-, -, hrun⟩
  · rw [hrun]
    exact hsetup
  · rw [hrun]
    exact (hsetup.trans (hconnect _)).trans (.of_outputs rfl)
  · rw [hrun]
    exact hsetup.trans (hconnect _)

/-- A Connect that fails on a connection without a socket leaves it without one. -/
theorem run_connect_closed (params : MQTTAgentConnectParams) (data : MQTTNotificationData)
    (xTicksToWait : UInt32) (hclosed : s.world.connection.xSocket = socketsInvalidSocket)
    (hfails : (runConnect user params data xTicksToWait s).1 ≠ true) :
    (runConnect user params data xTicksToWait s).2.world.connection.xSocket =
      socketsInvalidSocket := by
  have hcases := run_connect_cases user params data xTicksToWait s
  simp only at hcases
  rcases hcases with ⟨hfailed, hrun⟩ | ⟨-, -, hrun⟩ | ⟨-, -, hrun⟩
  · rw [hrun]
    exact setup_connection_failed params hclosed hfailed
  · rw [hrun]
    rfl
  · rw [hrun] at hfails
    exact absurd rfl hfails

/-- A Connect that fails once it is running on a connection without a socket. -/
theorem refused_running {start : Session (Endpoint E)} (hlinked : LinkedSession start)
    (hbefore : Proceeds s.world start.world)
    (hclosed : start.world.connection.xSocket = socketsInvalidSocket)
    (hsame : start.world.connection.xSocket = s.world.connection.xSocket)
    (xTicksToWait : UInt32) (x : Fin maxParallelOps) (code : MQTTNotifyCode)
    (hfails : (runConnect user params data xTicksToWait start).1 ≠ true) :
    ConnectRefused data s (finishCommand data (some x) code
      (runConnect user params data xTicksToWait start).1
      (runConnect user params data xTicksToWait start).2) := by
  have hoff := run_connect_closed params data xTicksToWait hclosed hfails
  have hproceeds : Proceeds start.world (runConnect user params data xTicksToWait start).2.world :=
    run_connect_proceeds params data xTicksToWait hclosed
  have hrun : LinkedSession (runConnect user params data xTicksToWait start).2 :=
    hlinked.run_connect params data xTicksToWait
  have hidle := hrun.linked.mp hoff
  rw [eq_false_of_ne_true hfails]
  obtain ⟨hkeeps, hcontext⟩ := finish_keeps data
    (runConnect user params data xTicksToWait start).2 (some x) code false
  refine ⟨finish_reported data (some x) code (hbefore.trans hproceeds), fun hopen => ?_,
    fun _ => ?_⟩
  · exact absurd (hsame ▸ hclosed) hopen
  · exact ⟨hkeeps.xSocket.trans hoff, hcontext ▸ hidle⟩

/-! ## One Connect -/

/-- A Connect that gets to the socket finds none and is granted one. -/
theorem ConnectGranted.of_running {xTicksToWait : UInt32}
    (h : ConnectGranted user params command s)
    (hticks : (s.world.call (user.checkForTimeOut command.xTicksToWait)).1 = some xTicksToWait)
    (hfree : ¬ ∀ x : Fin maxParallelOps,
      (getElem s.world.connection.xWaitingTasks x x.isLt).xTaskToNotify ≠ none) :
    s.world.connection.xSocket = socketsInvalidSocket ∧
      SocketGranted user params (checkedSession user command s).world := by
  rcases h with hup | hfull | hgranted
  · rw [hticks] at hup
    cases hup
  · exact absurd hfull hfree
  · exact hgranted

/-- A Connect that is granted a new socket and does not succeed is refused. -/
theorem connect_refused (h : LinkedSession s) (hevent : command.xEventType = .connectRequest params)
    (hgranted : ConnectGranted user params command s)
    (hfails : ¬ ConnectSucceeds user params command s) :
    ConnectRefused command.xNotificationData s (processCommand user command s) := by
  cases hticks : (s.world.call (user.checkForTimeOut command.xTicksToWait)).1 with
  | none =>
      rw [process_timed_out hticks]
      exact refused_beforehand h command _
  | some xTicksToWait =>
      rw [process_connect hevent hticks]
      unfold prvInitiateMQTTConnect
      by_cases hfull : ∀ x : Fin maxParallelOps,
          (checkedSession user command s).world.connection.xWaitingTasks[x].xTaskToNotify ≠ none
      · rw [initiate_full _ _ hfull]
        exact refused_beforehand h command _
      · have hclosed := (hgranted.of_running hticks hfull).1
        obtain ⟨x, start, hcontext, hsame, hproceeds, -, hstored, hinitiate⟩ :=
          initiate_free command.xNotificationData .connCouldNotBeSent
            (runConnect user params command.xNotificationData xTicksToWait) hfull
        have hlinked : LinkedSession start :=
          ⟨hcontext ▸ h.base, h.linked.congr hsame.xSocket hcontext⟩
        have hchecked : Proceeds s.world (checkedSession user command s).world := .of_outputs rfl
        rw [hinitiate]
        refine refused_running hlinked (hchecked.trans hproceeds) (hsame.xSocket.trans hclosed)
          hsame.xSocket xTicksToWait x _ ?_
        intro hsucceeds
        refine hfails ⟨xTicksToWait, hticks, ?_⟩
        rw [hstored]
        exact ⟨rfl, hsucceeds⟩

theorem finish_adds_no_fault (data : MQTTNotificationData) (s : Session (Endpoint E))
    (stored : Option (Fin maxParallelOps)) (code : MQTTNotifyCode) (xStatus : Bool) :
    AddsNoFault s.world (finishCommand data stored code xStatus s).world := by
  have hnotify := (same_socket_notify data code false s.world).adds_no_fault
    (proceeds_notify data code false s.world)
  unfold finishCommand
  split_ifs
  · exact .refl s.world
  · cases stored with
    | none => exact hnotify
    | some x => exact hnotify.trans (SameSocket.adds_no_fault ⟨rfl, rfl, rfl⟩ (.of_outputs rfl))

/-- A Connect that is granted a new socket adds no fault. -/
theorem connect_adds_no_fault (hevent : command.xEventType = .connectRequest params)
    (hgranted : ConnectGranted user params command s) :
    AddsNoFault s.world (processCommand user command s).world := by
  have hchecked : AddsNoFault s.world (checkedSession user command s).world :=
    call_adds_no_fault _ s.world
  refine hchecked.trans ?_
  cases hticks : (s.world.call (user.checkForTimeOut command.xTicksToWait)).1 with
  | none =>
      rw [process_timed_out hticks]
      exact finish_adds_no_fault _ _ none _ false
  | some xTicksToWait =>
      rw [process_connect hevent hticks]
      unfold prvInitiateMQTTConnect
      by_cases hfull : ∀ x : Fin maxParallelOps,
          (checkedSession user command s).world.connection.xWaitingTasks[x].xTaskToNotify ≠ none
      · rw [initiate_full _ _ hfull]
        exact finish_adds_no_fault _ _ none _ false
      · obtain ⟨hclosed, hsocket⟩ := hgranted.of_running hticks hfull
        obtain ⟨x, start, -, hsame, hproceeds, hport, -, hinitiate⟩ :=
          initiate_free command.xNotificationData .connCouldNotBeSent
            (runConnect user params command.xNotificationData xTicksToWait) hfull
        rw [hinitiate]
        refine ((hsame.adds_no_fault hproceeds).trans ?_).trans
          (finish_adds_no_fault _ _ (some x) _ _)
        refine run_connect_adds_no_fault _ _ (hsame.xSocket.trans hclosed) ?_
        unfold SocketGranted at hsocket ⊢
        rw [hport]
        exact hsocket

/-- Any other Connect ends the task. -/
theorem connect_faults (hevent : command.xEventType = .connectRequest params)
    (hrefused : ¬ ConnectGranted user params command s) :
    (processCommand user command s).world.Faulted := by
  obtain ⟨hticks, hrefused⟩ := not_or.mp hrefused
  obtain ⟨hfull, hrefused⟩ := not_or.mp hrefused
  obtain ⟨xTicksToWait, hticks⟩ := Option.ne_none_iff_exists'.mp hticks
  rw [process_connect hevent hticks]
  unfold prvInitiateMQTTConnect
  obtain ⟨x, start, -, hsame, -, hport, -, hinitiate⟩ :=
    initiate_free (s := checkedSession user command s) command.xNotificationData
      .connCouldNotBeSent (runConnect user params command.xNotificationData xTicksToWait) hfull
  rw [hinitiate]
  refine (finish_adds_no_fault _ _ (some x) _ _).stays (run_connect_faults _ _ ?_)
  rcases not_and_or.mp hrefused with hopen | hsocket
  · exact Or.inl (hsame.xSocket ▸ hopen)
  · refine Or.inr ?_
    unfold SocketGranted at hsocket ⊢
    rw [hport]
    exact hsocket

/-! ## Runs -/

namespace MQTTAgent

/-- No connection takes `NULL` for its socket. -/
def SocketsNotNull (agent : MQTTAgent E) : Prop :=
  ∀ broker, (agent.connections broker).xSocket ≠ 0

/-- A fault stays, and there is no new one as long as no socket is `NULL`. -/
structure AddsNoFault (agent agent' : MQTTAgent E) : Prop where
  stays : agent.Faulted → agent'.Faulted
  clean : agent.SocketsNotNull → agent'.SocketsNotNull ∧ (agent'.Faulted → agent.Faulted)

theorem AddsNoFault.trans {agent agent' agent'' : MQTTAgent E} (hfirst : agent.AddsNoFault agent')
    (hsecond : agent'.AddsNoFault agent'') : agent.AddsNoFault agent'' := by
  refine ⟨fun h => hsecond.stays (hfirst.stays h), fun hnull => ?_⟩
  obtain ⟨hnull', hclean⟩ := hfirst.clean hnull
  obtain ⟨hnull'', hclean'⟩ := hsecond.clean hnull'
  exact ⟨hnull'', fun h => hclean (hclean' h)⟩

/-- What adds no fault in the session of one connection adds none to the agent. -/
theorem adds_no_fault_store {broker : Fin maxBrokers}
    (h : Agent.AddsNoFault (agent.session broker).world s.world) :
    agent.AddsNoFault (agent.store broker s) := by
  refine ⟨h.stays, fun hnull => ⟨fun other => ?_, (h.clean (hnull broker)).2⟩⟩
  unfold MQTTAgent.store
  by_cases hother : other = broker
  · subst hother
    simp only [Function.update_self]
    exact (h.clean (hnull other)).1
  · simp only [Function.update_of_ne hother]
    exact hnull other

/-- Receiving a command adds no fault. -/
theorem adds_no_fault_receive (data : MQTTNotificationData) (agent : MQTTAgent E) :
    agent.AddsNoFault (agent.receive data) := by
  have hiff : (agent.receive data).Faulted ↔ agent.Faulted := by
    refine or_congr ?_ Iff.rfl
    show _ ∈ agent.outputs ++ [_] ↔ _
    simp
  exact ⟨hiff.mpr, fun hnull => ⟨hnull, hiff.mp⟩⟩

end MQTTAgent

theorem faults_kept_by_managing (user : Environment E) (w : Endpoint E) :
    KeptByManaging user fun s => AddsNoFault w s.world where
  receives s h _ := h.trans (receive_adds_no_fault user s.world)
  ticks s h := h.trans (call_adds_no_fault user.getTicks s.world)
  does _ _ _ _ _ h hdoes := h.trans (does_adds_no_fault hdoes)

/-- The commands other than Connect add no fault. -/
theorem faults_kept_by_commands (user : Environment E) (w : Endpoint E) :
    KeptByCommands user fun s => LinkedSession s ∧ AddsNoFault w s.world where
  same s s' hsame hproceeds hcontext h :=
    ⟨(linked_kept_by_commands user).same s s' hsame hproceeds hcontext h.1,
      h.2.trans (hsame.adds_no_fault hproceeds)⟩
  executes op s s' hop h hexecute :=
    ⟨(linked_kept_by_commands user).executes op s s' hop h.1 hexecute,
      h.2.trans (does_adds_no_fault (executed (initParams user) op h.1.base hexecute).1)⟩

/-- Between commands no fault is added. -/
theorem faults_kept_by_connections (user : Environment E) (start : MQTTAgent E) :
    KeptByConnections user fun agent => agent.Linked ∧ start.AddsNoFault agent := by
  intro agent broker h
  obtain ⟨received, hreceived, hlinked⟩ := linked_kept_by_connections user agent broker h.1
  obtain ⟨received', hreceived', -, hfaults⟩ := manage_session
    (faults_kept_by_managing user (agent.session broker).world) (h.1 broker).base (.refl _)
  rw [hreceived] at hreceived'
  cases hreceived'
  exact ⟨received, hreceived, hlinked, h.2.trans (MQTTAgent.adds_no_fault_store hfaults)⟩

/-- A command other than a Connect that is not granted a new socket adds no fault. -/
theorem command_adds_no_fault (h : agent.Linked) (command : MQTTEventData)
    (hgranted : ConnectsGranted user agent (some command)) :
    agent.AddsNoFault (agent.command user command) := by
  have hsession : LinkedSession
      ((agent.receive command.xNotificationData).session command.uxBrokerNumber) :=
    ⟨(h command.uxBrokerNumber).base, (h command.uxBrokerNumber).linked⟩
  refine (MQTTAgent.adds_no_fault_receive _ agent).trans (MQTTAgent.adds_no_fault_store ?_)
  by_cases hconnect : ∃ params, command.xEventType = .connectRequest params
  · obtain ⟨params, hevent⟩ := hconnect
    exact connect_adds_no_fault hevent (hgranted command rfl params hevent)
  · exact (process_command_session (faults_kept_by_commands user _) command
      ⟨hsession, .refl _⟩ fun params _ _ hevent => absurd ⟨params, hevent⟩ hconnect).2

/-- A Connect that is not granted a new socket ends the task. -/
theorem command_faults (command : MQTTEventData)
    (hrefused : ¬ ConnectsGranted user agent (some command)) :
    (agent.command user command).Faulted := by
  unfold ConnectsGranted at hrefused
  push Not at hrefused
  obtain ⟨other, hother, params, hevent, hrefused⟩ := hrefused
  cases hother
  exact connect_faults hevent hrefused

/-- A round adds no fault if every Connect in it is granted a new socket, and it ends with one
otherwise. -/
theorem round_faults (h : agent.Linked) (hstep : agentStep user agent received = some agent') :
    (ConnectsGranted user agent received → agent.AddsNoFault agent') ∧
      (¬ ConnectsGranted user agent received → agent'.Faulted) := by
  have hmanaged : ∀ start, (received = none → start = agent) →
      (∀ command ∈ received, start = agent.command user command) → start.AddsNoFault agent' := by
    intro start hnone hsome
    obtain ⟨next, hnext, -, hfaults⟩ :=
      task_round_preserves (faults_kept_by_connections user start)
        (fun hreceived : received = none =>
          ⟨h, hnone hreceived ▸ ⟨id, fun hnull => ⟨hnull, id⟩⟩⟩)
        fun command hcommand => ⟨h.processed user command,
          hsome command hcommand ▸ ⟨id, fun hnull => ⟨hnull, id⟩⟩⟩
    rw [hstep] at hnext
    cases hnext
    exact hfaults
  cases received with
  | none =>
      have hfaults := hmanaged agent (fun _ => rfl) fun _ habsurd => by cases habsurd
      refine ⟨fun _ => hfaults, fun hrefused => absurd ?_ hrefused⟩
      exact fun _ habsurd => by cases habsurd
  | some command =>
      have hfaults := hmanaged (agent.command user command) (fun habsurd => by cases habsurd)
        fun other hother => by cases hother; rfl
      exact ⟨fun hgranted => (command_adds_no_fault h command hgranted).trans hfaults,
        fun hrefused => hfaults.stays (command_faults command hrefused)⟩

/-- In a round in which every Connect is granted a new socket, one that does not succeed is
refused. -/
theorem round_fails_safely (h : agent.Linked) (hgranted : ConnectsGranted user agent received) :
    FailsSafely user agent received := by
  intro command hcommand params hevent before hfails
  have hsession : LinkedSession before :=
    ⟨(h command.uxBrokerNumber).base, (h command.uxBrokerNumber).linked⟩
  exact connect_refused hsession hevent (hgranted command hcommand params hevent) hfails

/-- The invariant of runs without a fault. -/
structure MQTTAgent.Running (agent : MQTTAgent E) : Prop where
  linked : agent.Linked
  sockets : agent.SocketsNotNull

theorem running_initial (memory : Fin maxBrokers → MQTTContext) (environment : E) :
    (MQTTAgent.initial memory environment).Running :=
  ⟨linked_initial memory environment, fun _ => Nat.succ_ne_zero _⟩

/-- A round in which every Connect is granted a new socket keeps the task running. -/
theorem MQTTAgent.Running.step (h : agent.Running) (hgranted : ConnectsGranted user agent received)
    (hstep : agentStep user agent received = some agent') : agent'.Running := by
  obtain ⟨next, hnext, hlinked⟩ := h.linked.step user received
  rw [hstep] at hnext
  cases hnext
  exact ⟨hlinked, (((round_faults h.linked hstep).1 hgranted).clean h.sockets).1⟩

/-- In every run of the MQTT task, whatever the environment does, these two come to the same: that
every Connect that does not succeed is refused, no assertion fails and no access goes through
`NULL`, and that every Connect finds its connection without a socket and is granted one unless it is
refused before it gets there. -/
theorem connects_fail_safely_iff (user : Environment E) (memory : Fin maxBrokers → MQTTContext)
    (environment : E) (events : List (Option MQTTEventData)) :
    (Throughout (agentStep user) (FailsSafely user) (.initial memory environment) events ∧
        Always (agentStep user) (fun agent => ¬ agent.Faulted)
          (.initial memory environment) events) ↔
      Throughout (agentStep user) (ConnectsGranted user) (.initial memory environment) events := by
  have hstart := running_initial memory environment
  have hclean : ¬ (MQTTAgent.initial memory environment).Faulted :=
    not_or.mpr ⟨List.not_mem_nil, List.not_mem_nil⟩
  have hfaults : Always (agentStep user) (fun agent => ¬ agent.Faulted)
      (.initial memory environment) events ↔
      Throughout (agentStep user) (ConnectsGranted user) (.initial memory environment) events := by
    refine always_iff_throughout MQTTAgent.Running (fun h _ hgranted => h.step hgranted) ?_
      hstart hclean
    intro agent received agent' h hclean hstep
    obtain ⟨hgranted, hrefused⟩ := round_faults h.linked hstep
    constructor
    · exact fun hclean' => by_contra fun hnot => hclean' (hrefused hnot)
    · exact fun hall hfaulted => hclean (((hgranted hall).clean h.sockets).2 hfaulted)
  refine ⟨fun h => hfaults.mp h.2, fun h => ⟨?_, hfaults.mpr h⟩⟩
  exact h.imp MQTTAgent.Running (fun h hgranted hstep => h.step hgranted hstep)
    (fun h hgranted => round_fails_safely h.linked hgranted) hstart

/-- The bench with a broker that stays silent. -/
def silentEnvironment : Environment Nat :=
  { benchEnvironment true with
    recv := fun _ _ _ e => (.error 10, e)
    tlsRecv := fun _ e => (.error 10, e) }

/-- Two Connects for one connection, the second with another callback. -/
def secondConnect : List (Option MQTTEventData) :=
  [some
    { uxBrokerNumber := ⟨0, max_brokers_pos⟩
      xEventType := .connectRequest benchConnectParams
      xNotificationData := ⟨some 1, 0x10000⟩
      xTicksToWait := 100 },
  some
    { uxBrokerNumber := ⟨0, max_brokers_pos⟩
      xEventType := .connectRequest { benchConnectParams with pxCallback := some 10 }
      xNotificationData := ⟨some 2, 0x20000⟩
      xTicksToWait := 100 }]

/-- The second Connect puts its callback in the place of the one of the open connection, and then
the assertion fails. -/
theorem second_connect_asserts :
    ((run (agentStep silentEnvironment) secondConnect (.initial (fun _ => blankContext) 1)).map
        fun agent => (agent.connections ⟨0, by decide⟩).pxCallback) = some (some 10) ∧
      ¬ (Throughout (agentStep silentEnvironment) (FailsSafely silentEnvironment)
            (.initial (fun _ => blankContext) 1) secondConnect ∧
          Always (agentStep silentEnvironment) (fun agent => ¬ agent.Faulted)
            (.initial (fun _ => blankContext) 1) secondConnect) := by
  refine ⟨rfl, ?_⟩
  rintro ⟨-, halways⟩
  obtain ⟨agent, hrun⟩ := Option.isSome_iff_exists.mp (show (run (agentStep silentEnvironment)
    secondConnect (.initial (fun _ => blankContext) 1)).isSome from rfl)
  have houtputs : ((run (agentStep silentEnvironment) secondConnect
      (.initial (fun _ => blankContext) 1)).map fun agent => agent.outputs[2]?) =
      some (some .assertFailed) := rfl
  rw [hrun] at houtputs
  exact halways.reached hrun (Or.inl (List.mem_of_getElem? (Option.some.inj houtputs)))

end TivaAws.Agent
