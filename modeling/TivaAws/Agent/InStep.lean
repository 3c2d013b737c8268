import TivaAws.Agent.ConnectFailures
import TivaAws.Agent.InFlight
import TivaAws.Agent.SocketOwners

/-!
# Every command is answered once

A command that the MQTT task receives is answered at once, or its request waits in the connection
while its packet is on the Tx list. `Answering` says so of one session: what has been received and
not answered is what waits in the connection, apart from some other requests, and the packet
identifiers of the waiting tasks are those of the Tx list. A command that is being processed counts
as one of the others until it is answered or stored.
-/

namespace TivaAws.Agent

open Mqtt Sockets Session Table Runs Lifetime Labelled

variable {E : Type} {user : Environment E} {w w' : Endpoint E} {s s' : Session (Endpoint E)}
  {op : Op} {rest : List Request} {earlier : List MQTTOutput} {data : MQTTNotificationData}
  {command : MQTTEventData} {agent : MQTTAgent E} {received : Option MQTTEventData}

/-! ## Sessions -/

/-- Requests are received and answered in order, and those of the connection and of some others
have not been answered. As long as the pool is honest, the tasks wait for what is on the Tx list. -/
structure Answering (rest : List Request) (earlier : List MQTTOutput) (s : Session (Endpoint E)) :
    Prop where
  safe : Safe [] (requestActions s.world.outputs)
  live : (remaining [] (requestActions s.world.outputs)).Perm (s.world.connection.requests ++ rest)
  inStep : HonestPool (earlier ++ s.outputs) →
    (heldAfter (earlier ++ s.outputs)).Balanced s.context.places ∧
      s.world.connection.waitingIdentifiers.Perm (txIdentifiers s.context)

theorem Undisturbed.waiting_identifiers (h : Undisturbed w w') :
    w'.connection.waitingIdentifiers = w.connection.waitingIdentifiers := by
  unfold MQTTBrokerConnection.waitingIdentifiers
  rw [h.requests]

theorem Answering.undisturbed (h : Answering rest earlier s) (hsame : Undisturbed s.world s'.world)
    (hcontext : s'.context = s.context) (houtputs : s'.outputs = s.outputs) :
    Answering rest earlier s' := by
  refine ⟨?_, ?_, ?_⟩
  · rw [hsame.actions]
    exact h.safe
  · rw [hsame.actions, hsame.requests]
    exact h.live
  · rw [houtputs, hcontext, hsame.waiting_identifiers]
    exact h.inStep

/-- The task of the data is told, and its request is no longer open. -/
theorem notify_actions (data : MQTTNotificationData) (code : MQTTNotifyCode) (uxStatus : Bool)
    (w : Endpoint E) :
    (prvNotifyRequestingTask data code uxStatus w).2.connection = w.connection ∧
      requestActions (prvNotifyRequestingTask data code uxStatus w).2.outputs =
        requestActions w.outputs ++ data.request.toList.map .release := by
  cases hrequest : data.request with
  | none =>
      rw [notify_requesting_task_none hrequest]
      exact ⟨rfl, (List.append_nil _).symm⟩
  | some request =>
      obtain ⟨-, hemit, hextract⟩ := notify_requesting_task_some hrequest code uxStatus w
      rw [hemit]
      refine ⟨rfl, ?_⟩
      rw [request_actions_emit, AgentOutput.requestAction, hextract]
      rfl

theorem Answering.notify (h : Answering (data.request.toList ++ rest) earlier s)
    (code : MQTTNotifyCode) (uxStatus : Bool) : Answering rest earlier
      (onEndpoint (fun w => (prvNotifyRequestingTask data code uxStatus w).2) s) := by
  obtain ⟨hconnection, hactions⟩ := notify_actions data code uxStatus s.world
  have hlive : (remaining [] (requestActions s.world.outputs)).Perm
      (data.request.toList ++ (s.world.connection.requests ++ rest)) :=
    h.live.trans (List.perm_append_comm_assoc _ _ _)
  obtain ⟨hsafe, hleft⟩ := Safe.release_all h.safe hlive
  refine ⟨?_, ?_, ?_⟩
  · show Safe [] (requestActions (prvNotifyRequestingTask data code uxStatus s.world).2.outputs)
    rw [hactions]
    exact hsafe
  · show (remaining [] (requestActions
      (prvNotifyRequestingTask data code uxStatus s.world).2.outputs)).Perm
        ((prvNotifyRequestingTask data code uxStatus s.world).2.connection.requests ++ rest)
    rw [hactions, hconnection]
    exact hleft
  · show HonestPool (earlier ++ s.outputs) → _ ∧
      (prvNotifyRequestingTask data code uxStatus s.world).2.connection.waitingIdentifiers.Perm _
    rw [hconnection]
    exact h.inStep

/-! ## Managing a connection -/

theorem Manages.not_awaits (h : Manages op) : ¬ op.Awaits := by
  cases op with
  | disconnect => exact id
  | periodic now => exact id
  | parseReceivedData data => exact id
  | _ => exact absurd h id

theorem Manages.ne_return_buffer (h : Manages op) (handle : MQTTBufferHandle) :
    op ≠ .returnBuffer handle := by
  rintro rfl
  exact h

theorem Answering.manage (h : Answering rest earlier s) (hop : Manages op)
    (hbase : BaseInvariant s.context) (hdoes : Does (initParams user) op s s') :
    Answering rest earlier s' := by
  obtain ⟨labels, hcalls, hsteps⟩ := hdoes
  obtain ⟨answered, hanswers, hwaiting⟩ := responses_in_flight hcalls.responses
  have hlive : (remaining [] (requestActions s.world.outputs)).Perm
      (answered ++ (s'.world.connection.requests ++ rest)) := by
    rw [← List.append_assoc]
    exact h.live.trans (hanswers.requests.append_right rest)
  obtain ⟨hsafe, hleft⟩ := Safe.release_all h.safe hlive
  refine ⟨?_, ?_, ?_⟩
  · rw [hanswers.actions]
    exact hsafe
  · rw [hanswers.actions]
    exact hleft
  · rw [hcalls.outputs, ← List.append_assoc, held_after_append, honest_pool_append]
    rintro ⟨hbefore, hhonest⟩
    obtain ⟨hbalanced, hstart⟩ := h.inStep hbefore
    obtain ⟨hheld, hfinish⟩ :=
      steps_in_flight hsteps hop.ne_return_buffer hbase.released hbalanced hhonest
    refine ⟨hheld, hwaiting.trans ?_⟩
    -- Both sides follow the same events.
    exact (after_outputs_perm hstart labels).trans (hfinish hop.not_connects hop.not_awaits).symm

theorem answering_kept_by_managing (user : Environment E) (rest : List Request)
    (earlier : List MQTTOutput) : KeptByManaging user (Answering rest earlier) where
  receives _ h _ := h.undisturbed ⟨rfl, rfl⟩ rfl rfl
  ticks _ h := h.undisturbed ⟨rfl, rfl⟩ rfl rfl
  does _ _ _ hop hbase h hdoes := h.manage hop hbase hdoes

/-! ## Submitting a packet -/

/-- What an operation does that submits a packet: the library reports notices at most and nobody is
told of anything, and the packet is on the Tx list exactly if the operation succeeds. -/
structure Submits (user : Environment E) (usPacketIdentifier : UInt16) (s : Session (Endpoint E))
    (result : Bool × Session (Endpoint E)) : Prop where
  undisturbed : Undisturbed s.world result.2.world
  grows : ∃ later, result.2.world.outputs = s.world.outputs ++ later
  steps : ∃ op labels, (∀ handle, op ≠ .returnBuffer handle) ∧
    (∀ event ∈ callbackEvents labels, event.IsNotice) ∧
      result.2.outputs = s.outputs ++ labels ∧
        Steps (Transition (initParams user) op) s.context labels result.2.context
  linked : result.1 = true →
    txIdentifiers result.2.context = usPacketIdentifier :: txIdentifiers s.context
  unlinked : result.1 = false → txIdentifiers result.2.context = txIdentifiers s.context

theorem steps_notices {c c' : MQTTContext} {labels : List MQTTOutput}
    (h : Steps (Transition (initParams user) op) c labels c') (hreceives : ¬ op.Receives)
    (hpolls : ∀ now, ¬ op.Polls now) (hdisconnect : op ≠ .disconnect) :
    ∀ event ∈ callbackEvents labels, event.IsNotice := by
  induction h with
  | refl => exact fun event hmem => absurd hmem List.not_mem_nil
  | cons htransition _ ih =>
      intro event hmem
      rw [callback_events_append, List.mem_append] at hmem
      rcases hmem with hmem | hmem
      · exact transition_notices htransition hreceives hpolls hdisconnect event hmem
      · exact ih event hmem

theorem tx_identifiers_requested {usPacketIdentifier : UInt16} {returnCode : MQTTReturnCode}
    {before after : MQTTContext} (h : Requested usPacketIdentifier returnCode before after) :
    (decide (returnCode = .success) = true →
        txIdentifiers after = usPacketIdentifier :: txIdentifiers before) ∧
      (decide (returnCode = .success) = false → txIdentifiers after = txIdentifiers before) := by
  unfold txIdentifiers
  refine ⟨fun hsuccess => ?_, fun hfailed => ?_⟩
  · obtain ⟨buffer, hidentifier, hlist⟩ := h.1 (of_decide_eq_true hsuccess)
    rw [hlist, List.map_cons, hidentifier]
  · rw [h.2 (of_decide_eq_false hfailed)]

/-- A call of the library that submits a packet. -/
theorem submits_called {usPacketIdentifier : UInt16}
    {called : MQTTReturnCode × Session (Endpoint E)} (hreceives : ¬ op.Receives)
    (hpolls : ∀ now, ¬ op.Polls now) (hdisconnect : op ≠ .disconnect)
    (hgive : ∀ handle, op ≠ .returnBuffer handle) (hdoes : Does (initParams user) op s called.2)
    (hrequested : Requested usPacketIdentifier called.1 s.context called.2.context) :
    Submits user usPacketIdentifier s (succeeds called) := by
  obtain ⟨hlinked, hunlinked⟩ := tx_identifiers_requested hrequested
  obtain ⟨labels, hcalls, hsteps⟩ := hdoes
  have hnotices := steps_notices hsteps hreceives hpolls hdisconnect
  obtain ⟨later, hlater, -⟩ := responses_proceed hcalls.responses
  exact ⟨responses_undisturbed hcalls.responses hnotices, ⟨later, hlater⟩,
    ⟨op, labels, hgive, hnotices, hcalls.outputs, hsteps⟩, hlinked, hunlinked⟩

theorem submits_subscribe (params : MQTTSubscribeParams) (s : Session (Endpoint E)) :
    Submits user params.packetIdentifier s
      (succeeds (mqttSubscribe (initParams user) params s)) := by
  obtain ⟨hdoes, hrequested⟩ := does_subscribe (initParams user) params s
  exact submits_called id (fun _ => id) Op.noConfusion (fun _ => Op.noConfusion) hdoes hrequested

theorem submits_unsubscribe (params : MQTTUnsubscribeParams) (s : Session (Endpoint E)) :
    Submits user params.packetIdentifier s
      (succeeds (mqttUnsubscribe (initParams user) params s)) := by
  obtain ⟨hdoes, hrequested⟩ := does_unsubscribe (initParams user) params s
  exact submits_called id (fun _ => id) Op.noConfusion (fun _ => Op.noConfusion) hdoes hrequested

theorem submits_publish (params : MQTTPublishParams) (hqos : params.qos ≠ .qos0)
    (s : Session (Endpoint E)) :
    Submits user params.packetIdentifier s (succeeds (mqttPublish (initParams user) params s)) := by
  obtain ⟨hdoes, hrequested, -⟩ := does_mqtt_publish (initParams user) params s
  exact submits_called id (fun _ => id) Op.noConfusion (fun _ => Op.noConfusion) hdoes
    (hrequested hqos)

theorem undisturbed_setup (user : Environment E) (params : MQTTAgentConnectParams)
    (w : Endpoint E) : Undisturbed w (prvSetupConnection user params w).2 := by
  unfold prvSetupConnection
  split_ifs
  · refine ⟨rfl, ?_⟩
    rw [request_actions_emit]
    exact List.append_nil _
  · unfold setupSocket
    simp only
    split_ifs
    · exact ⟨rfl, rfl⟩
    · exact ⟨rfl, rfl⟩
    · exact ⟨rfl, rfl⟩
  · exact .refl w

/-- Setting up a connection puts out a failed assertion at most. -/
theorem setup_grows (user : Environment E) (params : MQTTAgentConnectParams) (w : Endpoint E) :
    ∃ later, (prvSetupConnection user params w).2.outputs = w.outputs ++ later := by
  have hsame : ∀ {outputs : List AgentOutput}, outputs = w.outputs →
      ∃ later, outputs = w.outputs ++ later :=
    fun heq => ⟨[], heq.trans (List.append_nil _).symm⟩
  unfold prvSetupConnection
  split_ifs
  · exact ⟨[.assertFailed], rfl⟩
  · unfold setupSocket
    simp only
    split_ifs
    · exact hsame rfl
    · exact hsame rfl
    · exact hsame rfl
  · exact hsame rfl

theorem submits_connect (params : MQTTAgentConnectParams) (data : MQTTNotificationData)
    (xTicksToWait : UInt32) (s : Session (Endpoint E)) :
    Submits user data.packetIdentifier s (runConnect user params data xTicksToWait s) := by
  have hcases := run_connect_cases user params data xTicksToWait s
  simp only at hcases
  have hconfigured : Undisturbed s.world
      { s.world with connection := s.world.connection.configure params } := ⟨rfl, rfl⟩
  have hsetup := hconfigured.trans (undisturbed_setup user params _)
  obtain ⟨begun, hbegun⟩ := setup_grows user params
    { s.world with connection := s.world.connection.configure params }
  generalize hstart : (Session.mk _ _ _ : Session (Endpoint E)) = start at hcases
  have hundisturbed : Undisturbed s.world start.world := by
    subst hstart
    exact hsetup
  have hgrows : start.world.outputs = s.world.outputs ++ begun := by
    subst hstart
    exact hbegun
  have hcontext : start.context = s.context := by
    subst hstart
    rfl
  have houtputs : start.outputs = s.outputs := by
    subst hstart
    rfl
  obtain ⟨hdoes, hrequested⟩ :=
    does_connect (initParams user) (connectParams params data xTicksToWait) start
  have hcalled : Submits user data.packetIdentifier start (succeeds (mqttConnect (initParams user)
      (connectParams params data xTicksToWait) start)) :=
    submits_called id (fun _ => id) Op.noConfusion (fun _ => Op.noConfusion) hdoes hrequested
  obtain ⟨op, labels, hgive, hnotices, hlabels, hsteps⟩ := hcalled.steps
  obtain ⟨later, hlater⟩ := hcalled.grows
  rw [hgrows, List.append_assoc] at hlater
  rw [hcontext] at hsteps
  rw [houtputs] at hlabels
  -- No socket, no session on the socket, or a CONNECT packet that waits for its answer.
  rcases hcases with ⟨-, hrun⟩ | ⟨-, hcode, hrun⟩ | ⟨-, hcode, hrun⟩
  · rw [hrun]
    refine ⟨hundisturbed, ⟨begun, hgrows⟩, ⟨.connect (connectParams params data xTicksToWait), [],
      fun _ => Op.noConfusion, ?_, ?_, ?_⟩, Bool.noConfusion, fun _ => ?_⟩
    · exact fun event hmem => absurd hmem List.not_mem_nil
    · rw [houtputs, List.append_nil]
    · rw [hcontext]
      exact .refl _
    · rw [hcontext]
  · rw [hrun]
    refine ⟨(hundisturbed.trans hcalled.undisturbed).trans ⟨rfl, rfl⟩, ⟨begun ++ later, hlater⟩,
      ⟨op, labels, hgive, hnotices, hlabels, hsteps⟩, Bool.noConfusion, fun _ => ?_⟩
    rw [← hcontext]
    exact hcalled.unlinked (decide_eq_false hcode)
  · rw [hrun]
    refine ⟨hundisturbed.trans hcalled.undisturbed, ⟨begun ++ later, hlater⟩,
      ⟨op, labels, hgive, hnotices, hlabels, hsteps⟩, fun _ => ?_, Bool.noConfusion⟩
    rw [← hcontext]
    exact hcalled.linked (decide_eq_true hcode)

/-- What becomes of a command once its time has been asked for. A packet is submitted for it, or its
task is told at once, behind a call that leaves nothing on the Tx list or without one. -/
inductive CommandOutcome (user : Environment E) (command : MQTTEventData)
    (s : Session (Endpoint E)) : Session (Endpoint E) → Prop where
  | services : command.xEventType = .serviceSocket → CommandOutcome user command s s
  | timedOut : CommandOutcome user command s
      (finishCommand command.xNotificationData none .operationTimedOut false s)
  | disconnects : command.xEventType ≠ .serviceSocket → (code : MQTTNotifyCode) →
      (uxStatus : Bool) → CommandOutcome user command s (onEndpoint
        (fun w => (prvNotifyRequestingTask command.xNotificationData code uxStatus w).2)
          (mqttDisconnect (initParams user) s).2)
  | publishes : command.xEventType ≠ .serviceSocket → (params : MQTTPublishParams) →
      params.qos = .qos0 → (code : MQTTNotifyCode) → (uxStatus : Bool) →
      CommandOutcome user command s (onEndpoint
        (fun w => (prvNotifyRequestingTask command.xNotificationData code uxStatus w).2)
          (mqttPublish (initParams user) params s).2)
  | submits {run : Session (Endpoint E) → Bool × Session (Endpoint E)} :
      command.xEventType ≠ .serviceSocket → (code : MQTTNotifyCode) →
      (∀ start, Submits user command.xNotificationData.packetIdentifier start (run start)) →
      CommandOutcome user command s (initiate command.xNotificationData code run s)

theorem process_cases (user : Environment E) (command : MQTTEventData) (s : Session (Endpoint E)) :
    CommandOutcome user command (checkedSession user command s)
      (processCommand user command s) := by
  cases hticks : (s.world.call (user.checkForTimeOut command.xTicksToWait)).1 with
  | none =>
      rw [process_timed_out hticks]
      exact .timedOut
  | some xTicksToWait =>
      unfold processCommand
      simp only [hticks]
      -- A command that only wakes the task tells nobody.
      by_cases hservice : command.xEventType = .serviceSocket
      · rw [hservice]
        exact .services hservice
      cases hevent : command.xEventType with
      | connectRequest params => exact .submits hservice _ (submits_connect params _ xTicksToWait)
      | disconnectRequest =>
          unfold prvInitiateMQTTDisconnect
          simp only
          split_ifs
          · exact .disconnects hservice .disconnSent true
          · exact .disconnects hservice .disconnCouldNotBeSent false
      | subscribeRequest params =>
          exact .submits hservice _
            (submits_subscribe (subscribeParams params command.xNotificationData xTicksToWait))
      | unsubscribeRequest params =>
          exact .submits hservice _
            (submits_unsubscribe (unsubscribeParams params command.xNotificationData xTicksToWait))
      | publishRequest params =>
          unfold prvInitiateMQTTPublish
          simp only
          split_ifs with hqos
          · exact .submits hservice _ (submits_publish
              (publishParams params command.xNotificationData xTicksToWait) hqos)
          · -- With QoS 0 there is nothing to wait for.
            exact .publishes hservice (publishParams params command.xNotificationData xTicksToWait)
              (not_not.mp hqos) .pubSent true
          · exact .publishes hservice (publishParams params command.xNotificationData xTicksToWait)
              (not_not.mp hqos) .pubCouldNotBeSent false
      | serviceSocket => exact absurd hevent hservice

/-! ## Commands -/

/-- The data goes to a free entry, if there is one. -/
theorem store_notification_cases (data : MQTTNotificationData) (s : Session (Endpoint E)) :
    storeNotification data s = (none, s) ∨
      ∃ x : Fin maxParallelOps,
        (getElem s.world.connection.xWaitingTasks x x.isLt).request = none ∧
        storeNotification data s = (some x, onEndpoint (fun w => w.setWaiting x data) s) := by
  unfold storeNotification prvStoreNotificationData
  cases hfree : firstIndex (fun entry : MQTTNotificationData => entry.xTaskToNotify.isNone)
    s.world.connection.xWaitingTasks with
  | none => exact .inl rfl
  | some x =>
      refine .inr ⟨x, request_of_none ?_, rfl⟩
      exact Option.isNone_iff_eq_none.mp (firstIndex_satisfies hfree)

/-- An operation that submits a packet for a request that has been stored. -/
theorem Answering.submit {request : Request} {x : Fin maxParallelOps}
    (hrequest : data.request = some request) (h : Answering (request :: rest) earlier s)
    (hbase : BaseInvariant s.context)
    (hfree : (getElem s.world.connection.xWaitingTasks x x.isLt).request = none)
    (code : MQTTNotifyCode)
    {result : Bool × Session (Endpoint E)}
    (hsubmits : Submits user data.packetIdentifier (onEndpoint (fun w => w.setWaiting x data) s)
      result) :
    Answering rest earlier (finishCommand data (some x) code result.1 result.2) := by
  obtain ⟨hundisturbed, -, ⟨op, labels, hgive, -, houtputs, hsteps⟩, hlinked, hunlinked⟩ := hsubmits
  have hidentifier : request.2 = data.packetIdentifier := by
    obtain ⟨task, -, rfl⟩ := Option.map_eq_some_iff.mp hrequest
    rfl
  -- The entry holds the request from now on.
  have hstored : result.2.world.connection.requests.Perm
      (request :: s.world.connection.requests) := by
    rw [hundisturbed.requests]
    have hset := requests_set_waiting x data s.world
    rw [hfree, hrequest] at hset
    exact hset
  have hentry : result.2.world.connection.xWaitingTasks[x].request = some request := by
    rw [hundisturbed.waiting]
    show ((s.world.connection.xWaitingTasks.set x data)[x]).request = some request
    rw [getElem_set, if_pos rfl]
    exact hrequest
  have hactions : requestActions result.2.world.outputs = requestActions s.world.outputs :=
    hundisturbed.actions
  have hlive : (remaining [] (requestActions result.2.world.outputs)).Perm
      (result.2.world.connection.requests ++ rest) := by
    rw [hactions]
    exact h.live.trans (List.perm_middle.trans (hstored.symm.append_right rest))
  have hheld : HonestPool (earlier ++ result.2.outputs) →
      (heldAfter (earlier ++ result.2.outputs)).Balanced result.2.context.places ∧
        s.world.connection.waitingIdentifiers.Perm (txIdentifiers s.context) := by
    rw [show result.2.outputs = s.outputs ++ labels from houtputs, ← List.append_assoc,
      held_after_append, honest_pool_append]
    rintro ⟨hbefore, hhonest⟩
    obtain ⟨hbalanced, hstart⟩ := h.inStep hbefore
    exact ⟨(steps_in_flight hsteps hgive hbase.released hbalanced hhonest).1, hstart⟩
  have hsafe : Safe [] (requestActions result.2.world.outputs) := by
    rw [hactions]
    exact h.safe
  cases hresult : result.1 with
  -- The packet is on the Tx list and the request in its entry.
  | true =>
      refine ⟨hsafe, hlive, fun hhonest => ⟨(hheld hhonest).1, ?_⟩⟩
      show result.2.world.connection.waitingIdentifiers.Perm (txIdentifiers result.2.context)
      rw [hlinked hresult, ← hidentifier]
      exact (hstored.map Prod.snd).trans ((hheld hhonest).2.cons request.2)
  | false =>
      obtain ⟨hconnection, hnotified⟩ := notify_actions data code false result.2.world
      generalize htold : (prvNotifyRequestingTask data code false result.2.world).2 = told
        at hconnection hnotified
      have hfinish : finishCommand data (some x) code false result.2 = onEndpoint (fun _ =>
          told.setWaiting x { told.connection.xWaitingTasks[x] with xTaskToNotify := none })
            result.2 := by
        subst htold
        rfl
      -- The entry is free again, and the task has been told.
      have hcleared : result.2.world.connection.requests.Perm
          (request :: (told.setWaiting x { told.connection.xWaitingTasks[x] with
            xTaskToNotify := none }).connection.requests) := by
        have hset := requests_set_waiting x
          { told.connection.xWaitingTasks[x] with xTaskToNotify := none } told
        rw [hconnection, hentry, request_of_none rfl] at hset
        rw [hconnection]
        exact hset.symm
      rw [hfinish]
      generalize hfinal : told.setWaiting x _ = final at hcleared ⊢
      have hfinalActions : requestActions final.outputs =
          requestActions result.2.world.outputs ++ [request].map .release := by
        subst hfinal
        rw [hrequest] at hnotified
        exact hnotified
      have hopen : (remaining [] (requestActions result.2.world.outputs)).Perm
          ([request] ++ (final.connection.requests ++ rest)) :=
        hlive.trans (hcleared.append_right rest)
      obtain ⟨hsafe', hleft⟩ := Safe.release_all hsafe hopen
      refine ⟨?_, ?_, fun hhonest => ⟨(hheld hhonest).1, ?_⟩⟩
      · show Safe [] (requestActions final.outputs)
        rw [hfinalActions]
        exact hsafe'
      · show (remaining [] (requestActions final.outputs)).Perm _
        rw [hfinalActions]
        exact hleft
      · show final.connection.waitingIdentifiers.Perm (txIdentifiers result.2.context)
        rw [hunlinked hresult]
        have hback := (hcleared.symm.trans hstored).cons_inv
        exact (hback.map Prod.snd).trans (hheld hhonest).2

theorem request_of_is_some (h : data.xTaskToNotify.isSome) :
    ∃ request, data.request = some request := by
  obtain ⟨task, htask⟩ := Option.isSome_iff_exists.mp h
  unfold MQTTNotificationData.request
  rw [htask]
  exact ⟨_, rfl⟩

/-- A command that submits a packet is answered at once, or it waits together with its packet. -/
theorem Answering.initiate (htask : data.xTaskToNotify.isSome)
    (h : Answering (data.request.toList ++ rest) earlier s) (hbase : BaseInvariant s.context)
    (code : MQTTNotifyCode) {run : Session (Endpoint E) → Bool × Session (Endpoint E)}
    (hrun : ∀ start, Submits user data.packetIdentifier start (run start)) :
    Answering rest earlier (initiate data code run s) := by
  unfold Agent.initiate
  rcases store_notification_cases data s with hstored | ⟨x, hfree, hstored⟩
  · rw [hstored]
    exact h.notify code false
  · obtain ⟨request, hrequest⟩ := request_of_is_some htask
    rw [hrequest] at h
    rw [hstored]
    exact h.submit hrequest hbase hfree code (hrun _)

/-- What the tasks and the callback of the socket put into the queue: a command other than the one
that only wakes the MQTT task comes with the task that waits for its answer. -/
def MQTTEventData.Queued (command : MQTTEventData) : Prop :=
  match command.xEventType with
  | .serviceSocket => command.xNotificationData.xTaskToNotify = none
  | _ => command.xNotificationData.xTaskToNotify.isSome

theorem MQTTEventData.Queued.nobody (h : command.Queued)
    (hevent : command.xEventType = .serviceSocket) :
    command.xNotificationData.xTaskToNotify = none := by
  unfold MQTTEventData.Queued at h
  rw [hevent] at h
  exact h

theorem MQTTEventData.Queued.task (h : command.Queued)
    (hevent : command.xEventType ≠ .serviceSocket) :
    command.xNotificationData.xTaskToNotify.isSome := by
  unfold MQTTEventData.Queued at h
  split at h
  · exact absurd (by assumption) hevent
  · exact h

/-- A QoS 0 publish reports nothing and leaves the Tx list alone. -/
theorem Answering.publish_qos0 (params : MQTTPublishParams) (hqos : params.qos = .qos0)
    (h : Answering rest earlier s) (hbase : BaseInvariant s.context) :
    Answering rest earlier (mqttPublish (initParams user) params s).2 := by
  obtain ⟨⟨labels, hcalls, hsteps⟩, -, hlist⟩ := does_mqtt_publish (initParams user) params s
  have hundisturbed : Undisturbed s.world (mqttPublish (initParams user) params s).2.world :=
    responses_undisturbed hcalls.responses
      (steps_notices hsteps id (fun _ => id) Op.noConfusion)
  refine ⟨?_, ?_, ?_⟩
  · rw [hundisturbed.actions]
    exact h.safe
  · rw [hundisturbed.actions, hundisturbed.requests]
    exact h.live
  · rw [hcalls.outputs, ← List.append_assoc, held_after_append, honest_pool_append,
      hundisturbed.waiting_identifiers]
    rintro ⟨hbefore, hhonest⟩
    obtain ⟨hbalanced, hstart⟩ := h.inStep hbefore
    refine ⟨(steps_in_flight hsteps (fun _ => Op.noConfusion) hbase.released hbalanced
      hhonest).1, ?_⟩
    unfold txIdentifiers at hstart ⊢
    rw [hlist hqos]
    exact hstart

/-- A command that has been received is answered, or its request waits. -/
theorem Answering.process (hqueued : command.Queued)
    (h : Answering (command.xNotificationData.request.toList ++ rest) earlier s)
    (hbase : BaseInvariant s.context) :
    Answering rest earlier (processCommand user command s) := by
  have hchecked : Answering (command.xNotificationData.request.toList ++ rest) earlier
      (checkedSession user command s) := h.undisturbed ⟨rfl, rfl⟩ rfl rfl
  have hprocessed := process_cases user command s
  generalize processCommand user command s = s' at hprocessed ⊢
  cases hprocessed with
  | services hevent =>
      rw [request_of_none (hqueued.nobody hevent)] at hchecked
      exact hchecked
  | timedOut => exact hchecked.notify _ false
  | disconnects hevent code uxStatus =>
      have hdisconnects : Manages .disconnect := trivial
      exact (hchecked.manage hdisconnects hbase (does_disconnect (initParams user) _)).notify code
        uxStatus
  | publishes hevent params hqos code uxStatus =>
      exact (hchecked.publish_qos0 params hqos hbase).notify code uxStatus
  | submits hevent code hrun => exact hchecked.initiate (hqueued.task hevent) hbase code hrun

/-! ## All connections -/

namespace MQTTAgent

/-- The requests that wait in some connections. -/
def requestsOf (brokers : List (Fin maxBrokers)) (agent : MQTTAgent E) : List Request :=
  brokers.flatMap fun broker => (agent.connections broker).requests

/-- What the library has put out for a connection. -/
def outputsOf (broker : Fin maxBrokers) (agent : MQTTAgent E) : List MQTTOutput :=
  agent.log.filterMap fun entry => if entry.1 = broker then some entry.2 else none

/-- A connection to which the pool is honest holds the buffers of its context, and its tasks wait
for what is on the Tx list. -/
def InStep (agent : MQTTAgent E) : Prop :=
  ∀ broker, HonestPool (agent.outputsOf broker) →
    (heldAfter (agent.outputsOf broker)).Balanced (agent.contexts broker).places ∧
      (agent.connections broker).waitingIdentifiers.Perm (txIdentifiers (agent.contexts broker))

/-- What has been received and not answered waits in the connections. -/
structure Answering (agent : MQTTAgent E) : Prop where
  safe : Safe [] (requestActions agent.outputs)
  live : (remaining [] (requestActions agent.outputs)).Perm
    (agent.requestsOf (List.finRange maxBrokers))
  inStep : agent.InStep

theorem requests_of_others (broker : Fin maxBrokers) (agent : MQTTAgent E) :
    (agent.requestsOf (List.finRange maxBrokers)).Perm
      ((agent.connections broker).requests ++ agent.requestsOf (others broker)) :=
  (List.perm_cons_erase (List.mem_finRange broker)).flatMap_right _

theorem outputs_of_store (broker other : Fin maxBrokers) (s : Session (Endpoint E))
    (agent : MQTTAgent E) :
    (agent.store broker s).outputsOf other =
      agent.outputsOf other ++ if broker = other then s.outputs else [] := by
  unfold outputsOf store
  rw [List.filterMap_append, List.filterMap_map]
  congr 1
  split_ifs with hsame
  · exact (List.filterMap_congr fun output _ => if_pos hsame).trans List.filterMap_some
  · exact List.filterMap_eq_nil_iff.mpr fun output _ => if_neg hsame

/-- What holds of all connections, from the side of one. -/
theorem Answering.session (h : agent.Answering) (broker : Fin maxBrokers) :
    Agent.Answering (agent.requestsOf (others broker)) (agent.outputsOf broker)
      (agent.session broker) := by
  have houtputs : agent.outputsOf broker ++ (agent.session broker).outputs =
      agent.outputsOf broker := List.append_nil _
  refine ⟨h.safe, h.live.trans (requests_of_others broker agent), ?_⟩
  rw [houtputs]
  exact h.inStep broker

/-- Something done in the session of one connection that keeps its requests in order. -/
theorem InStep.store (h : agent.InStep) {broker : Fin maxBrokers}
    (hsession : Agent.Answering (agent.requestsOf (others broker)) (agent.outputsOf broker) s) :
    (agent.store broker s).Answering := by
  have hself : (agent.store broker s).connections broker = s.world.connection :=
    Function.update_self _ _ _
  have hrest : (agent.store broker s).requestsOf (others broker) =
      agent.requestsOf (others broker) := by
    refine List.flatMap_congr fun other hmem => ?_
    have hother : (agent.store broker s).connections other = agent.connections other :=
      Function.update_of_ne ((List.nodup_finRange _).mem_erase_iff.mp hmem).1 _ _
    rw [hother]
  refine ⟨hsession.safe, ?_, fun other => ?_⟩
  · refine List.Perm.trans ?_ (requests_of_others broker (agent.store broker s)).symm
    rw [hself, hrest]
    exact hsession.live
  · rw [outputs_of_store]
    by_cases hother : broker = other
    · subst hother
      rw [if_pos rfl, hself, show (agent.store broker s).contexts broker = s.context from
        Function.update_self _ _ _]
      exact hsession.inStep
    · rw [if_neg hother, List.append_nil,
        show (agent.store broker s).connections other = agent.connections other from
          Function.update_of_ne (Ne.symm hother) _ _,
        show (agent.store broker s).contexts other = agent.contexts other from
          Function.update_of_ne (Ne.symm hother) _ _]
      exact h other

end MQTTAgent

/-- What the task may receive: a command from the queue whose packet identifier is not in flight on
any connection. -/
def ReceivesApart (agent : MQTTAgent E) (received : Option MQTTEventData) : Prop :=
  ∀ command ∈ received, command.Queued ∧ ∀ request ∈ command.xNotificationData.request,
    ∀ broker, request.2 ∉ (agent.connections broker).waitingIdentifiers

/-- The request of a received command is open. -/
theorem answering_received (h : agent.Answering) (broker : Fin maxBrokers)
    (hapart : ∀ request ∈ data.request, ∀ broker,
      request.2 ∉ (agent.connections broker).waitingIdentifiers) :
    Answering (data.request.toList ++ agent.requestsOf (MQTTAgent.others broker))
      (agent.outputsOf broker) ((agent.receive data).session broker) := by
  have hactions : requestActions (agent.receive data).outputs =
      requestActions agent.outputs ++ data.request.toList.map .acquire := by
    unfold MQTTAgent.receive requestActions
    rw [List.filterMap_append]
    cases hrequest : data.request with
    | none => simp [AgentOutput.requestAction, hrequest]
    | some request => simp [AgentOutput.requestAction, hrequest]
  have hsession := h.session broker
  refine ⟨?_, ?_, hsession.inStep⟩
  · show Safe [] (requestActions (agent.receive data).outputs)
    rw [hactions, safe_append]
    refine ⟨h.safe, ?_⟩
    cases hrequest : data.request with
    | none => trivial
    | some request =>
        refine ⟨fun hmem => ?_, trivial⟩
        obtain ⟨other, -, hopen⟩ := List.mem_flatMap.mp (h.live.mem_iff.mp hmem)
        exact hapart request hrequest other (List.mem_map_of_mem hopen)
  · show (remaining [] (requestActions (agent.receive data).outputs)).Perm
      ((agent.connections broker).requests ++ _)
    rw [hactions, remaining_append]
    have hlive := hsession.live
    cases hrequest : data.request with
    | none => exact hlive
    | some request => exact (hlive.cons request).trans List.perm_middle.symm

theorem requests_initial : MQTTBrokerConnection.initial.requests = [] := by
  refine requests_eq_nil fun x => request_of_none ?_
  show (MQTTBrokerConnection.initial.xWaitingTasks[x]).xTaskToNotify = none
  unfold MQTTBrokerConnection.initial
  rw [Fin.getElem_fin, Vector.getElem_replicate]

theorem answering_initial (memory : Fin maxBrokers → MQTTContext) (environment : E) :
    (MQTTAgent.initial memory environment).Answering := by
  refine ⟨trivial, ?_, fun broker _ => ⟨Ledger.balanced_empty, ?_⟩⟩
  · have hall : (MQTTAgent.initial memory environment).requestsOf (List.finRange maxBrokers) = [] :=
      List.flatMap_eq_nil_iff.mpr fun _ _ => requests_initial
    rw [hall]
    exact .refl _
  · show (MQTTBrokerConnection.initial.requests.map Prod.snd).Perm _
    rw [requests_initial]
    exact .refl _

end TivaAws.Agent
