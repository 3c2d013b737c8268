import TivaAws.Agent.Connection
import TivaAws.Mqtt.Context

/-!
# Callbacks of the MQTT agent

What the agent registers with the core library, as `MQTTInitParams` over an endpoint, and how it
keeps account of the tasks that wait for an answer. The `prvProcessReceived…` functions look up
the waiting task by the packet identifier, which is the upper half of its message identifier.
-/

namespace TivaAws.Agent

open Mqtt Sockets Table

variable {E : Type} (user : Environment E)

/-! ## Waiting tasks -/

/-- `prvStoreNotificationData`: the buffer that was unused, if there was one. -/
def prvStoreNotificationData (data : MQTTNotificationData) (connection : MQTTBrokerConnection) :
    Option (Fin maxParallelOps) × MQTTBrokerConnection :=
  match firstIndex (fun entry => entry.xTaskToNotify.isNone) connection.xWaitingTasks with
  | none => (none, connection)
  | some x =>
      (some x, { connection with xWaitingTasks := connection.xWaitingTasks.set x data })

/-- The entry belongs to a task that waits for this packet identifier. -/
def MQTTNotificationData.waitsFor (usPacketIdentifier : UInt16) (data : MQTTNotificationData) :
    Bool :=
  data.xTaskToNotify.isSome && usPacketIdentifier == data.packetIdentifier

/-- `prvRetrieveNotificationData`. -/
def prvRetrieveNotificationData (usPacketIdentifier : UInt16)
    (connection : MQTTBrokerConnection) : Option (Fin maxParallelOps) :=
  firstIndex (MQTTNotificationData.waitsFor usPacketIdentifier) connection.xWaitingTasks

/-- The value that tells a task the outcome of its request. -/
def MQTTNotificationData.outcome (code : MQTTNotifyCode) (uxStatus : Bool)
    (data : MQTTNotificationData) : UInt32 :=
  data.ulMessageIdentifier ||| code.toUInt32 ||| if uxStatus then 1 else 0

/-- `prvNotifyRequestingTask`. -/
def prvNotifyRequestingTask (data : MQTTNotificationData) (code : MQTTNotifyCode)
    (uxStatus : Bool) (w : Endpoint E) : MQTTNotificationData × Endpoint E :=
  match data.xTaskToNotify with
  | none => (data, w)
  | some task =>
      let value := data.outcome code uxStatus
      ({ xTaskToNotify := none, ulMessageIdentifier := value }, w.emit (.notified task value))

/-- Store an entry of `xWaitingTasks`. -/
def Endpoint.setWaiting (x : Fin maxParallelOps) (data : MQTTNotificationData) (w : Endpoint E) :
    Endpoint E :=
  { w with connection.xWaitingTasks := w.connection.xWaitingTasks.set x data }

/-- `prvNotifyRequestingTask` on an entry of `xWaitingTasks`. -/
def notifyWaiting (x : Fin maxParallelOps) (code : MQTTNotifyCode) (uxStatus : Bool)
    (w : Endpoint E) : Endpoint E :=
  let notified := prvNotifyRequestingTask w.connection.xWaitingTasks[x] code uxStatus w
  notified.2.setWaiting x notified.1

/-- Notify the task that waits for a packet identifier, if there is one. -/
def notifyIfWaiting (usPacketIdentifier : UInt16) (code : MQTTNotifyCode) (uxStatus : Bool)
    (w : Endpoint E) : Endpoint E :=
  match prvRetrieveNotificationData usPacketIdentifier w.connection with
  | none => w
  | some x => notifyWaiting x code uxStatus w

/-! ## Events -/

/-- `prvProcessReceivedCONNACK`. The task whose connection was rejected is notified when the library
reports the disconnect that follows. -/
def prvProcessReceivedCONNACK (returnCode : MQTTConnACKReturnCode) (usPacketIdentifier : UInt16)
    (w : Endpoint E) : Endpoint E :=
  if returnCode = .connectionAccepted then
    notifyIfWaiting usPacketIdentifier .connACKConnectionAccepted true w
  else w

/-- `prvProcessReceivedSUBACK`. -/
def prvProcessReceivedSUBACK (returnCode : MQTTSubACKReturnCode) (usPacketIdentifier : UInt16)
    (w : Endpoint E) : Endpoint E :=
  if returnCode ≠ .subACKFailure then
    notifyIfWaiting usPacketIdentifier .subACKSubscriptionAccepted true w
  else notifyIfWaiting usPacketIdentifier .subACKSubscriptionRejected false w

/-- `prvProcessReceivedUNSUBACK`. -/
def prvProcessReceivedUNSUBACK (usPacketIdentifier : UInt16) : Endpoint E → Endpoint E :=
  notifyIfWaiting usPacketIdentifier .unsubACKReceived true

/-- `prvProcessReceivedPUBACK`. -/
def prvProcessReceivedPUBACK (usPacketIdentifier : UInt16) : Endpoint E → Endpoint E :=
  notifyIfWaiting usPacketIdentifier .pubACKReceived true

/-- `prvProcessReceivedTimeout`. -/
def prvProcessReceivedTimeout (usPacketIdentifier : UInt16) : Endpoint E → Endpoint E :=
  notifyIfWaiting usPacketIdentifier .operationTimedOut false

/-- Call the callback of the user, if there is one. -/
def callUser (event : MQTTAgentEvent) (w : Endpoint E) : Bool × Endpoint E :=
  match w.connection.pxCallback with
  | none => (false, w)
  | some pxCallback =>
      (w.emit (.callback pxCallback w.connection.pvUserData event)).call
        (user.callback pxCallback w.connection.pvUserData event)

/-- `prvProcessReceivedPublish`. -/
def prvProcessReceivedPublish (data : MQTTPublishData) : Endpoint E → Bool × Endpoint E :=
  callUser user (.publish data)

/-- `prvProcessReceivedDisconnect`. -/
def prvProcessReceivedDisconnect (w : Endpoint E) : Endpoint E :=
  let w :=
    if w.connection.xSocket ≠ socketsInvalidSocket then
      prvGracefulSocketClose user (callUser user .disconnect w).2
    else w
  (List.finRange maxParallelOps).foldl
    (fun w x => notifyWaiting x .clientGotDisconnected false w) w

/-- `prvMQTTEventCallback`. -/
def prvMQTTEventCallback (event : MQTTEvent) (w : Endpoint E) : Bool × Endpoint E :=
  match event with
  | .connACK returnCode usPacketIdentifier =>
      (false, prvProcessReceivedCONNACK returnCode usPacketIdentifier w)
  | .subACK returnCode usPacketIdentifier =>
      (false, prvProcessReceivedSUBACK returnCode usPacketIdentifier w)
  | .unSubACK usPacketIdentifier => (false, prvProcessReceivedUNSUBACK usPacketIdentifier w)
  | .pubACK usPacketIdentifier => (false, prvProcessReceivedPUBACK usPacketIdentifier w)
  | .publish data => prvProcessReceivedPublish user data w
  | .timeout usPacketIdentifier => (false, prvProcessReceivedTimeout usPacketIdentifier w)
  | .clientDisconnected _ => (false, prvProcessReceivedDisconnect user w)
  | .unexpectedConnACK | .unexpectedPubACK | .unexpectedSubACK | .unexpectedUnSubACK
  | .packetDropped | .pingTimeout => (false, w)

/-! ## Sending -/

/-- The loop of `prvMQTTSendCallback` with `ulBytesSent` bytes sent: the bytes sent in the end. -/
def sendLoop (xSocket : Nat) (pucData : List UInt8) : Nat → Nat → Port E → Nat × Port E
  | 0, ulBytesSent, port => (ulBytesSent, port)
  | rounds + 1, ulBytesSent, port =>
      if ulBytesSent < pucData.length then
        let sent := socketsSend user.toPlatform xSocket (pucData.drop ulBytesSent) 0 port
        if sent.1 < 0 then
          if sent.1 ≠ socketsEWouldBlock then (ulBytesSent, sent.2)
          else sendLoop xSocket pucData rounds ulBytesSent sent.2
        else sendLoop xSocket pucData rounds (ulBytesSent + sent.1.toNat) sent.2
      else (ulBytesSent, port)

/-- `prvMQTTSendCallback`. -/
def prvMQTTSendCallback (pucData : List UInt8) (w : Endpoint E) : Nat × Endpoint E :=
  let rounds := w.call user.sendRounds
  rounds.2.onPort (sendLoop user rounds.2.connection.xSocket pucData rounds.1 0)

/-! ## What is registered -/

/-- `xInitParams` of `MQTT_AGENT_Init`, with the topic specific callbacks of the user. -/
def initParams : MQTTInitParams (Endpoint E) where
  callback := some (prvMQTTEventCallback user)
  send := prvMQTTSendCallback user
  getTicks := some fun w => w.call user.getTicks
  getBuffer requested w := w.call (user.getBuffer requested)
  returnBuffer handle w := w.withEnvironment (user.returnBuffer handle w.port.environment)
  publishCallback function context data w := w.call (user.publishCallback function context data)

end TivaAws.Agent
