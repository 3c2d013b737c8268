import TivaAws.Mqtt.Types
import TivaAws.Sockets.Port

/-!
# Data model of the MQTT agent

The types of `aws_mqtt_agent.c`. An `Endpoint` is the agent's side of one connection: its
`MQTTBrokerConnection_t` without the context of the core library, the sockets port, and what the
MQTT task has done. The callbacks that the agent registers with the library change it and nothing
else. An `Environment` is what the agent takes from outside.
-/

namespace TivaAws.Agent

open Mqtt Sockets

/-! ## Constants -/

/-- `mqttconfigMAX_BROKERS`. -/
def maxBrokers : Nat := 3

theorem max_brokers_pos : 0 < maxBrokers := by decide

/-- `mqttconfigMAX_PARALLEL_OPS`. -/
def maxParallelOps : Nat := 5

/-- `mqttconfigRX_BUFFER_SIZE`. -/
def rxBufferSize : Nat := 1024

/-- `securesocketsMAX_DNS_NAME_LENGTH`. -/
def maxDnsNameLength : Nat := 253

/-- `securesocketsDEFAULT_TLS_DESTINATION_PORT`. -/
def defaultTlsDestinationPort : UInt16 := 443

/-- `mqttagentURL_IS_IP_ADDRESS`. -/
def urlIsIpAddress : UInt32 := 1

/-- `mqttagentREQUIRE_TLS`. -/
def requireTls : UInt32 := 2

/-- `mqttagentUSE_AWS_IOT_ALPN_443`. -/
def useAwsIotAlpn443 : UInt32 := 4

/-- `mqttCONNECTION_SECURED`. -/
def connectionSecured : UInt32 := 1

/-- `socketsAWS_IOT_ALPN_MQTT`, "x-amzn-mqtt-ca". -/
def awsIotAlpnMqtt : List UInt8 :=
  [0x78, 0x2d, 0x61, 0x6d, 0x7a, 0x6e, 0x2d, 0x6d, 0x71, 0x74, 0x74, 0x2d, 0x63, 0x61]

/-- `SOCKETS_SHUT_RDWR`. -/
def shutRdwr : Nat := 2

/-! ## Notifications -/

/-- `TaskHandle_t`, other than `NULL`. -/
abbrev TaskHandle := Nat

/-- `MQTTNotifyCodes_t`. -/
inductive MQTTNotifyCode where
  | connCouldNotBeSent
  | connACKConnectionAccepted
  | disconnSent
  | disconnCouldNotBeSent
  | pubCouldNotBeSent
  | pubSent
  | pubACKReceived
  | subCouldNotBeSent
  | subACKSubscriptionAccepted
  | subACKSubscriptionRejected
  | unsubCouldNotBeSent
  | unsubACKReceived
  | operationTimedOut
  | clientGotDisconnected
  deriving DecidableEq, Repr

/-- The value of a notification code; the lowest bit is left for the status. -/
def MQTTNotifyCode.toUInt32 : MQTTNotifyCode → UInt32
  | .connCouldNotBeSent => 2
  | .connACKConnectionAccepted => 4
  | .disconnSent => 8
  | .disconnCouldNotBeSent => 10
  | .pubCouldNotBeSent => 12
  | .pubSent => 14
  | .pubACKReceived => 16
  | .subCouldNotBeSent => 18
  | .subACKSubscriptionAccepted => 20
  | .subACKSubscriptionRejected => 22
  | .unsubCouldNotBeSent => 24
  | .unsubACKReceived => 26
  | .operationTimedOut => 32
  | .clientGotDisconnected => 34

/-- `MQTTNotificationData_t`. -/
structure MQTTNotificationData where
  xTaskToNotify : Option TaskHandle
  ulMessageIdentifier : UInt32
  deriving DecidableEq, Repr

/-- `mqttMESSAGE_IDENTIFIER_EXTRACT`, cut to the 16 bits of a packet identifier. -/
def messageIdentifierExtract (ulMessageIdentifier : UInt32) : UInt16 :=
  (ulMessageIdentifier >>> 16).toUInt16

/-- The packet identifier of the request that a task has made. -/
def MQTTNotificationData.packetIdentifier (data : MQTTNotificationData) : UInt16 :=
  messageIdentifierExtract data.ulMessageIdentifier

/-! ## Parameters -/

/-- `MQTTAgentConnectParams_t`. The bytes of `pcURL` are those before the terminator, and
`pcCertificate` has `ulCertificateSize` bytes. -/
structure MQTTAgentConnectParams where
  pcURL : List UInt8
  xFlags : UInt32
  xURLIsIPAddress : Bool
  usPort : UInt16
  clientId : MQTTString
  xSecuredConnection : Bool
  pvUserData : CallbackContext
  pxCallback : Option FunctionPointer
  pcCertificate : Option (List UInt8)

/-- Whether a bit of `xFlags` is set. -/
def MQTTAgentConnectParams.hasFlag (params : MQTTAgentConnectParams) (flag : UInt32) : Bool :=
  params.xFlags &&& flag ≠ 0

/-- `MQTTAgentEvent_t` with the union member that goes with it. -/
inductive MQTTAgentEvent where
  | publish (data : MQTTPublishData)
  | disconnect

/-- `MQTTAgentSubscribeParams_t`. -/
structure MQTTAgentSubscribeParams where
  topic : MQTTString
  xQoS : MQTTQoS
  pvPublishCallbackContext : CallbackContext
  pxPublishCallback : Option FunctionPointer

/-- `MQTTAgentUnsubscribeParams_t`. -/
structure MQTTAgentUnsubscribeParams where
  topic : MQTTString

/-- `MQTTAgentPublishParams_t`. -/
structure MQTTAgentPublishParams where
  topic : MQTTString
  xQoS : MQTTQoS
  pvData : List UInt8
  length_lt : pvData.length < 2 ^ 32

/-- `MQTTAction_t` with the parameters that go with it. -/
inductive MQTTAction where
  | serviceSocket
  | connectRequest (params : MQTTAgentConnectParams)
  | disconnectRequest
  | subscribeRequest (params : MQTTAgentSubscribeParams)
  | unsubscribeRequest (params : MQTTAgentUnsubscribeParams)
  | publishRequest (params : MQTTAgentPublishParams)

/-- `MQTTEventData_t`; the environment knows when it was created. The broker number is one that
`configASSERT` lets pass. -/
structure MQTTEventData where
  uxBrokerNumber : Fin maxBrokers
  xEventType : MQTTAction
  xNotificationData : MQTTNotificationData
  xTicksToWait : UInt32

/-! ## Connections -/

/-- `MQTTBrokerConnection_t` without `xMQTTContext`. What is in `ucRxBuffer` between two calls is
never read. -/
structure MQTTBrokerConnection where
  xSocket : Nat
  xWaitingTasks : Vector MQTTNotificationData maxParallelOps
  pvUserData : CallbackContext
  pxCallback : Option FunctionPointer
  uxFlags : UInt32

/-- A connection after `MQTT_AGENT_Init`. -/
def MQTTBrokerConnection.initial : MQTTBrokerConnection where
  xSocket := socketsInvalidSocket
  xWaitingTasks := Vector.replicate maxParallelOps ⟨none, 0⟩
  pvUserData := 0
  pxCallback := none
  uxFlags := 0

/-- What the agent does to its surroundings, besides what the sockets port does. -/
inductive AgentOutput where
  /-- A command of a task is received from the queue. -/
  | received (data : MQTTNotificationData)
  /-- A task is notified with a value. -/
  | notified (task : TaskHandle) (value : UInt32)
  /-- The callback of the user is called. -/
  | callback (function : FunctionPointer) (pvUserData : CallbackContext) (event : MQTTAgentEvent)
  /-- A `configASSERT` has failed: the program stays there with interrupts disabled. -/
  | assertFailed

/-- What the agent takes from outside: the platform under the sockets, the clock, the buffer pool
and the user's callbacks. `closeRounds` and `sendRounds` say how often `xTaskCheckForTimeOut`
answers that there is time left, in the loops that it ends; `checkForTimeOut` gives the ticks that
are left to a command. -/
structure Environment (E : Type) extends Platform E where
  closeRounds : E → Nat × E
  sendRounds : E → Nat × E
  checkForTimeOut : (xTicksToWait : UInt32) → E → Option UInt32 × E
  getTicks : E → UInt64 × E
  getBuffer : (requested : Nat) → E → Option (PoolBuffer requested) × E
  returnBuffer : MQTTBufferHandle → E → E
  callback : FunctionPointer → CallbackContext → MQTTAgentEvent → E → Bool × E
  publishCallback : FunctionPointer → CallbackContext → MQTTPublishData → E → Bool × E

/-- The agent's side of one connection, with the world around it. -/
structure Endpoint (E : Type) where
  connection : MQTTBrokerConnection
  port : Port E
  outputs : List AgentOutput

variable {E : Type}

namespace Endpoint

/-- Append an output. -/
def emit (output : AgentOutput) (w : Endpoint E) : Endpoint E :=
  { w with outputs := w.outputs ++ [output] }

/-- Change the sockets port. -/
def withPort (port : Port E) (w : Endpoint E) : Endpoint E :=
  { w with port }

/-- Change the environment. -/
def withEnvironment (environment : E) (w : Endpoint E) : Endpoint E :=
  { w with port.environment := environment }

/-- Change the socket. -/
def withSocket (xSocket : Nat) (w : Endpoint E) : Endpoint E :=
  { w with connection.xSocket := xSocket }

/-- A call out of the agent that leaves the endpoint as it is. -/
def call {α : Type} (f : E → α × E) (w : Endpoint E) : α × Endpoint E :=
  let answer := f w.port.environment
  (answer.1, w.withEnvironment answer.2)

/-- A function of the port. -/
def onPort {α : Type} (f : Port E → α × Port E) (w : Endpoint E) : α × Endpoint E :=
  let answer := f w.port
  (answer.1, w.withPort answer.2)

end Endpoint

end TivaAws.Agent
