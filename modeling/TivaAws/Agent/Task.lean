import TivaAws.Agent.Callbacks
import TivaAws.Mqtt.Operations
import TivaAws.Mqtt.Parse

/-!
# The MQTT task

The `prvInitiateMQTT…` functions that the MQTT task calls for a command, `prvManageConnections`,
and one round of `prvMQTTTask`. What concerns one connection works on a `Session` of the core
library whose world is the endpoint of that connection; an `MQTTAgent` has all connections.
-/

namespace TivaAws.Agent

open Mqtt Sockets

variable {E : Type} (user : Environment E)

/-! ## Commands -/

/-- Change the endpoint of a session. -/
def onEndpoint (f : Endpoint E → Endpoint E) (s : Session (Endpoint E)) : Session (Endpoint E) :=
  { s with world := f s.world }

/-- Store the notification data of a command and go on with the buffer, if there is one. -/
def storeNotification (data : MQTTNotificationData) (s : Session (Endpoint E)) :
    Option (Fin maxParallelOps) × Session (Endpoint E) :=
  let stored := prvStoreNotificationData data s.world.connection
  (stored.1, onEndpoint (fun w => { w with connection := stored.2 }) s)

/-- The end of a command: if it has failed, tell its task and return the buffer. -/
def finishCommand (data : MQTTNotificationData) (stored : Option (Fin maxParallelOps))
    (code : MQTTNotifyCode) (xStatus : Bool) (s : Session (Endpoint E)) : Session (Endpoint E) :=
  if xStatus then s
  else
    let s := onEndpoint (fun w => (prvNotifyRequestingTask data code false w).2) s
    match stored with
    | none => s
    | some x =>
        onEndpoint (fun w =>
          w.setWaiting x
            { getElem w.connection.xWaitingTasks x x.isLt with xTaskToNotify := none }) s

/-- What the commands have in common: the notification data is stored, the core library is called,
and if there was no buffer or the call has failed the task is told. -/
def initiate (data : MQTTNotificationData) (code : MQTTNotifyCode)
    (run : Session (Endpoint E) → Bool × Session (Endpoint E)) (s : Session (Endpoint E)) :
    Session (Endpoint E) :=
  let stored := storeNotification data s
  if stored.1.isSome then
    let result := run stored.2
    finishCommand data stored.1 code result.1 result.2
  else finishCommand data none code false stored.2

/-- `cUserName`. -/
def cUserName : MQTTString where
  bytes := "?SDK=AmazonFreeRTOS&Version=V10.0.1&Platform=Unknown".toList.map Char.toUInt8
  length_lt := by decide

/-- The parameters of `MQTT_Connect`. -/
def connectParams (params : MQTTAgentConnectParams) (data : MQTTNotificationData)
    (xTicksToWait : UInt32) : MQTTConnectParams where
  keepAliveIntervalSeconds := 1200
  keepAliveActualIntervalTicks := 300000
  pingRequestTimeoutTicks := 1000
  clientId := params.clientId
  userName := cUserName
  packetIdentifier := data.packetIdentifier
  timeoutTicks := xTicksToWait

/-- The user data, the callback and the flags that `prvInitiateMQTTConnect` stores before anything
is checked. -/
def MQTTBrokerConnection.configure (params : MQTTAgentConnectParams)
    (connection : MQTTBrokerConnection) : MQTTBrokerConnection :=
  { connection with
    pvUserData := params.pvUserData
    pxCallback := params.pxCallback
    uxFlags :=
      if params.xSecuredConnection = false ∧ params.hasFlag requireTls = false then
        connection.uxFlags &&& ~~~ connectionSecured
      else connection.uxFlags ||| connectionSecured }

/-- What `prvInitiateMQTTConnect` does once the notification data is stored. -/
def runConnect (params : MQTTAgentConnectParams) (data : MQTTNotificationData)
    (xTicksToWait : UInt32) (s : Session (Endpoint E)) : Bool × Session (Endpoint E) :=
  let s := onEndpoint (fun w => { w with connection := w.connection.configure params }) s
  let setup := prvSetupConnection user params s.world
  let s := { s with world := setup.2 }
  if setup.1 then
    let connected := mqttConnect (initParams user) (connectParams params data xTicksToWait) s
    if connected.1 ≠ .success then (false, onEndpoint (prvGracefulSocketClose user) connected.2)
    else (true, connected.2)
  else (false, s)

/-- `prvInitiateMQTTConnect`. -/
def prvInitiateMQTTConnect (params : MQTTAgentConnectParams) (data : MQTTNotificationData)
    (xTicksToWait : UInt32) : Session (Endpoint E) → Session (Endpoint E) :=
  initiate data .connCouldNotBeSent (runConnect user params data xTicksToWait)

/-- `prvInitiateMQTTDisconnect`. -/
def prvInitiateMQTTDisconnect (data : MQTTNotificationData) (s : Session (Endpoint E)) :
    Session (Endpoint E) :=
  let disconnected := mqttDisconnect (initParams user) s
  if disconnected.1 = .success then
    onEndpoint (fun w => (prvNotifyRequestingTask data .disconnSent true w).2) disconnected.2
  else
    onEndpoint (fun w => (prvNotifyRequestingTask data .disconnCouldNotBeSent false w).2)
      disconnected.2

/-- A call of the core library, and whether it has succeeded. -/
def succeeds (called : MQTTReturnCode × Session (Endpoint E)) : Bool × Session (Endpoint E) :=
  (called.1 = .success, called.2)

/-- The parameters of `MQTT_Subscribe`. -/
def subscribeParams (params : MQTTAgentSubscribeParams) (data : MQTTNotificationData)
    (xTicksToWait : UInt32) : MQTTSubscribeParams where
  topic := params.topic
  qos := params.xQoS
  packetIdentifier := data.packetIdentifier
  timeoutTicks := xTicksToWait
  publishCallbackContext := params.pvPublishCallbackContext
  publishCallback := params.pxPublishCallback

/-- `prvInitiateMQTTSubscribe`. -/
def prvInitiateMQTTSubscribe (params : MQTTAgentSubscribeParams) (data : MQTTNotificationData)
    (xTicksToWait : UInt32) : Session (Endpoint E) → Session (Endpoint E) :=
  initiate data .subCouldNotBeSent fun s =>
    succeeds (mqttSubscribe (initParams user) (subscribeParams params data xTicksToWait) s)

/-- The parameters of `MQTT_Unsubscribe`. -/
def unsubscribeParams (params : MQTTAgentUnsubscribeParams) (data : MQTTNotificationData)
    (xTicksToWait : UInt32) : MQTTUnsubscribeParams where
  topic := params.topic
  packetIdentifier := data.packetIdentifier
  timeoutTicks := xTicksToWait

/-- `prvInitiateMQTTUnSubscribe`. -/
def prvInitiateMQTTUnSubscribe (params : MQTTAgentUnsubscribeParams) (data : MQTTNotificationData)
    (xTicksToWait : UInt32) : Session (Endpoint E) → Session (Endpoint E) :=
  initiate data .unsubCouldNotBeSent fun s =>
    succeeds (mqttUnsubscribe (initParams user) (unsubscribeParams params data xTicksToWait) s)

/-- The parameters of `MQTT_Publish`. -/
def publishParams (params : MQTTAgentPublishParams) (data : MQTTNotificationData)
    (xTicksToWait : UInt32) : MQTTPublishParams where
  topic := params.topic
  qos := params.xQoS
  data := params.pvData
  length_lt := params.length_lt
  packetIdentifier := data.packetIdentifier
  timeoutTicks := xTicksToWait

/-- `prvInitiateMQTTPublish`. Nothing is stored for QoS 0, where the task is told at once that the
message has been sent. -/
def prvInitiateMQTTPublish (params : MQTTAgentPublishParams) (data : MQTTNotificationData)
    (xTicksToWait : UInt32) (s : Session (Endpoint E)) : Session (Endpoint E) :=
  let publish (s : Session (Endpoint E)) : Bool × Session (Endpoint E) :=
    succeeds (mqttPublish (initParams user) (publishParams params data xTicksToWait) s)
  if params.xQoS ≠ .qos0 then initiate data .pubCouldNotBeSent publish s
  else
    let published := publish s
    if published.1 then
      onEndpoint (fun w => (prvNotifyRequestingTask data .pubSent true w).2) published.2
    else finishCommand data none .pubCouldNotBeSent false published.2

/-- What `prvMQTTTask` does with a command: it fails it if its time is up, and initiates the
operation with the ticks that are left otherwise. -/
def processCommand (command : MQTTEventData) (s : Session (Endpoint E)) : Session (Endpoint E) :=
  let data := command.xNotificationData
  let checked := s.world.call (user.checkForTimeOut command.xTicksToWait)
  let s := { s with world := checked.2 }
  match checked.1 with
  | none => onEndpoint (fun w => (prvNotifyRequestingTask data .operationTimedOut false w).2) s
  | some xTicksToWait =>
      match command.xEventType with
      | .connectRequest params => prvInitiateMQTTConnect user params data xTicksToWait s
      | .disconnectRequest => prvInitiateMQTTDisconnect user data s
      | .subscribeRequest params => prvInitiateMQTTSubscribe user params data xTicksToWait s
      | .unsubscribeRequest params => prvInitiateMQTTUnSubscribe user params data xTicksToWait s
      | .publishRequest params => prvInitiateMQTTPublish user params data xTicksToWait s
      | .serviceSocket => s

/-! ## Connections -/

/-- The part of `prvManageConnections` that reads from the socket of a connection: whether
`xNextTimeoutTicks` becomes zero; `none` if the library does not return. -/
def receiveData (s : Session (Endpoint E)) : Option (Bool × Session (Endpoint E)) :=
  if s.world.connection.xSocket ≠ socketsInvalidSocket then
    let received := s.world.onPort
      (socketsRecv user.toPlatform s.world.connection.xSocket rxBufferSize 0)
    let s := { s with world := received.2 }
    match received.1 with
    | .bytes data _ =>
        if data ≠ [] then
          (mqttParseReceivedData (initParams user) data s).map fun parsed => (true, parsed.2)
        else some (false, s)
    | .error code =>
        if Int.negSucc code ≠ socketsEWouldBlock then
          some (false, (mqttDisconnect (initParams user) s).2)
        else some (false, s)
  else some (false, s)

/-- The part of `prvManageConnections` that calls `MQTT_Periodic`. -/
def invokePeriodic (s : Session (Endpoint E)) : Session (Endpoint E) × UInt32 :=
  let ticks := s.world.call user.getTicks
  mqttPeriodic (initParams user) ticks.1 { s with world := ticks.2 }

/-- The state of the MQTT agent: the connections with their contexts, the sockets port, what the
task has done and what the library has put out for each connection. -/
structure MQTTAgent (E : Type) where
  contexts : Fin maxBrokers → MQTTContext
  connections : Fin maxBrokers → MQTTBrokerConnection
  port : Port E
  outputs : List AgentOutput
  log : List (Fin maxBrokers × MQTTOutput)

namespace MQTTAgent

/-- The session of a connection. -/
def session (broker : Fin maxBrokers) (agent : MQTTAgent E) : Session (Endpoint E) where
  context := agent.contexts broker
  world := ⟨agent.connections broker, agent.port, agent.outputs⟩
  outputs := []

/-- The agent after something has been done in the session of a connection. -/
def store (broker : Fin maxBrokers) (s : Session (Endpoint E)) (agent : MQTTAgent E) :
    MQTTAgent E where
  contexts := Function.update agent.contexts broker s.context
  connections := Function.update agent.connections broker s.world.connection
  port := s.world.port
  outputs := s.world.outputs
  log := agent.log ++ s.outputs.map (broker, ·)

end MQTTAgent

/-- `portMAX_DELAY`. -/
def portMaxDelay : UInt32 := 0xFFFFFFFF

/-- `mqttconfigMQTT_TASK_MAX_BLOCK_TICKS`. -/
def mqttTaskMaxBlockTicks : UInt32 := 100

/-- The body of the loop of `prvManageConnections` for one broker. -/
def manageConnection (broker : Fin maxBrokers) (state : MQTTAgent E × Bool × UInt32) :
    Option (MQTTAgent E × Bool × UInt32) := do
  let (agent, xAnyConnectedClient, xNextTimeoutTicks) := state
  let received ← receiveData user (agent.session broker)
  let xNextTimeoutTicks := if received.1 then 0 else xNextTimeoutTicks
  let connected := received.2.world.connection.xSocket ≠ socketsInvalidSocket
  let periodic := invokePeriodic user received.2
  some (agent.store broker periodic.1, xAnyConnectedClient || connected,
    min xNextTimeoutTicks periodic.2)

/-- `prvManageConnections`: the agent and `xNextTimeoutTicks`. -/
def prvManageConnections (agent : MQTTAgent E) : Option (MQTTAgent E × UInt32) := do
  let (agent, xAnyConnectedClient, xNextTimeoutTicks) ←
    (List.finRange maxBrokers).foldlM (fun state broker => manageConnection user broker state)
      (agent, false, portMaxDelay)
  some (agent,
    if xAnyConnectedClient then min xNextTimeoutTicks mqttTaskMaxBlockTicks
    else xNextTimeoutTicks)

/-- One round of `prvMQTTTask`, with the command that was received from the queue, if any. -/
def taskRound (received : Option MQTTEventData) (agent : MQTTAgent E) :
    Option (MQTTAgent E × UInt32) :=
  match received with
  | none => prvManageConnections user agent
  | some command =>
      let broker := command.uxBrokerNumber
      let agent :=
        { agent with
          outputs := agent.outputs ++ [AgentOutput.received command.xNotificationData] }
      prvManageConnections user
        (agent.store broker (processCommand user command (agent.session broker)))

/-- `MQTT_AGENT_Init`, on whatever the memory of the contexts holds. -/
def MQTTAgent.initial (memory : Fin maxBrokers → MQTTContext) (environment : E) : MQTTAgent E where
  contexts broker := mqttInit (memory broker)
  connections _ := .initial
  port := ⟨fun _ => none, [], environment⟩
  outputs := []
  log := []

end TivaAws.Agent
