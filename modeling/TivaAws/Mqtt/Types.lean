import TivaAws.Foundation.ByteMemory
import Mathlib.Data.Fin.Basic

/-!
# Data model of the MQTT core library

The types of `aws_mqtt_lib.h` and `aws_mqtt_buffer.h`, with the constants of
`aws_mqtt_config.h`. A buffer is a value that carries its handle: the Tx list holds the buffers
in list order (newest first, as `listADD` links them) and `rxBuffer` holds the Rx buffer or
`none` for `NULL`. Lengths are natural numbers; the code's 32-bit wrap-around is written out
where a computation can reach it.
-/

namespace TivaAws.Mqtt

/-! ## Constants -/

/-- `mqttREMAINING_LENGTH_MAX_BYTES`. -/
def remainingLengthMaxBytes : Nat := 4

/-- `mqttFIXED_HEADER_MAX_SIZE`: the control byte and the longest "Remaining Length". -/
def fixedHeaderMaxSize : Nat := 1 + remainingLengthMaxBytes

/-- `mqttFIXED_HEADER_MIN_SIZE`. -/
def fixedHeaderMinSize : Nat := 2

/-- `mqttMAX_REMAINING_LENGTH_LENGTH`: the largest length four bytes can encode. -/
def maxRemainingLength : Nat := 268435455

/-- `mqttconfigSUBSCRIPTION_MANAGER_MAX_TOPIC_LENGTH`. -/
def subscriptionManagerMaxTopicLength : Nat := 128

/-- `mqttconfigSUBSCRIPTION_MANAGER_MAX_SUBSCRIPTIONS`. -/
def subscriptionManagerMaxSubscriptions : Nat := 8

/-- `sizeof( MQTTBufferMetadata_t )` on the Cortex-M4. -/
def sizeofMQTTBufferMetadata : Nat := 32

/-! ### Control packet types (`mqttCONTROL_*`) and flags (`mqttFLAGS_*`) -/

def controlCONNECT : UInt8 := (1 : UInt8) <<< 4
def controlCONNACK : UInt8 := (2 : UInt8) <<< 4
def controlPUBLISH : UInt8 := (3 : UInt8) <<< 4
def controlPUBACK : UInt8 := (4 : UInt8) <<< 4
def controlSUBSCRIBE : UInt8 := (8 : UInt8) <<< 4
def controlSUBACK : UInt8 := (9 : UInt8) <<< 4
def controlUNSUBSCRIBE : UInt8 := (10 : UInt8) <<< 4
def controlUNSUBACK : UInt8 := (11 : UInt8) <<< 4
def controlPINGREQ : UInt8 := (12 : UInt8) <<< 4
def controlPINGRESP : UInt8 := (13 : UInt8) <<< 4
def controlDISCONNECT : UInt8 := (14 : UInt8) <<< 4

def flagsCONNECT : UInt8 := 0
def flagsSUBSCRIBE : UInt8 := 2
def flagsUNSUBSCRIBE : UInt8 := 2

/-- `mqttTOP_NIBBLE_MASK`. -/
def topNibbleMask : UInt8 := 0xF0

/-- `mqttLOWER_NIBBLE_MASK`. -/
def lowerNibbleMask : UInt8 := 0x0F

/-- `mqttCONNECT_CLEAN_SESSION_FLAG`. -/
def connectCleanSessionFlag : UInt8 := (1 : UInt8) <<< 1

/-- `mqttCONNECT_USER_NAME_FLAG`. -/
def connectUserNameFlag : UInt8 := (1 : UInt8) <<< 7

/-- `mqttPROTOCOL_LEVEL`. -/
def protocolLevel : UInt8 := 4

/-- `mqttADJUST_OFFSET`: an offset after the "Remaining Length" field, which spans
`remainingLengthFieldBytes` bytes instead of one. -/
def adjustOffset (offset remainingLengthFieldBytes : Nat) : Nat :=
  offset + remainingLengthFieldBytes - 1

/-- `mqttTOTAL_MESSAGE_LENGTH`. -/
def totalMessageLength (remainingLengthFieldBytes remainingLength : Nat) : Nat :=
  1 + remainingLengthFieldBytes + remainingLength

/-- Subtraction of two `uint32_t` values, which wraps around below zero. -/
def sub32 (minuend subtrahend : Nat) : Nat :=
  (minuend + 2 ^ 32 - subtrahend) % 2 ^ 32

/-- The big-endian 16-bit value the code assembles from two packet bytes. -/
def word16 (msb lsb : UInt8) : UInt16 :=
  (msb.toUInt16 <<< 8) ||| lsb.toUInt16

/-! ## Enumerations -/

/-- `MQTTReturnCode_t`. -/
inductive MQTTReturnCode where
  | success
  | failure
  | clientAlreadyConnected
  | clientConnectionInProgress
  | clientNotConnected
  | noFreeBuffer
  | sendFailed
  | malformedPacketReceived
  | subscriptionManagerFull
  deriving DecidableEq, Repr

/-- `MQTTRxNextByte_t`: what the next received byte is part of. -/
inductive MQTTRxNextByte where
  | packetType
  | packetLength
  | message
  deriving DecidableEq, Repr

/-- `MQTTRxMessageAction_t`: whether the incoming message is stored or dropped. -/
inductive MQTTRxMessageAction where
  | store
  | drop
  deriving DecidableEq, Repr

/-- `MQTTConnectionState_t`. -/
inductive MQTTConnectionState where
  | notConnected
  | connectionInProgress
  | connected
  deriving DecidableEq, Repr

/-- `MQTTDisconnectReason_t`. -/
inductive MQTTDisconnectReason where
  | malformedPacket
  | brokerRefusedConnection
  | userRequest
  | connectTimeout
  deriving DecidableEq, Repr

/-- `MQTTQoS_t`. `qos2` is a value of the type that the library does not support. -/
inductive MQTTQoS where
  | qos0
  | qos1
  | qos2
  deriving DecidableEq, Repr

/-- The byte a `MQTTQoS_t` value is cast to. -/
def MQTTQoS.toUInt8 : MQTTQoS → UInt8
  | .qos0 => 0
  | .qos1 => 1
  | .qos2 => 2

/-- `MQTTConnACKReturnCode_t`. -/
inductive MQTTConnACKReturnCode where
  | connectionAccepted
  | unacceptableProtocolVersion
  | identifierRejected
  | serverUnavailable
  | badUsernameOrPassword
  | unauthorized
  deriving DecidableEq, Repr

/-- `MQTTSubACKReturnCode_t`; `eMQTTSubACKSuccessQos2` is never produced. -/
inductive MQTTSubACKReturnCode where
  | successQos0
  | successQos1
  | subACKFailure
  deriving DecidableEq, Repr

/-- `MQTTTopicFilterType_t`. -/
inductive MQTTTopicFilterType where
  | invalid
  | simple
  | wildCard
  deriving DecidableEq, Repr

/-! ## Buffers -/

/-- `MQTTBufferHandle_t`: the address of a buffer. -/
abbrev MQTTBufferHandle := Nat

/-- `MQTTBufferState_t`: the part of the metadata that tracks a transmitted packet. -/
structure MQTTBufferState where
  recordedTickCount : UInt64
  timeoutTicks : UInt32
  packetIdentifier : UInt16

/-- A buffer: its address, the metadata in its first bytes and the data that follows them. -/
structure MQTTBuffer where
  handle : MQTTBufferHandle
  bufferState : MQTTBufferState
  bufferLength : Nat
  dataLength : Nat
  data : ByteMemory

/-- `mqttbufferGET_EFFECTIVE_BUFFER_LENGTH`: the space after the metadata. -/
def MQTTBuffer.effectiveLength (buffer : MQTTBuffer) : Nat :=
  buffer.bufferLength - sizeofMQTTBufferMetadata

/-- The bytes of the packet a buffer holds. -/
def MQTTBuffer.packet (buffer : MQTTBuffer) : List UInt8 :=
  buffer.data.readBytes 0 buffer.dataLength

/-- What the pool hands out for a request of `requested` bytes. `MQTTGetFreeBuffer_t` allows a
larger buffer than requested and requires the length to be the actual one, so every answer is
at least as long as the request. The memory behind it is whatever the last user left there. -/
structure PoolBuffer (requested : Nat) where
  handle : MQTTBufferHandle
  length : Nat
  bufferState : MQTTBufferState
  data : ByteMemory
  requested_le : requested ≤ length

/-- `mqttbufferINIT_BUFFER`: the links are cleared and both lengths are set. -/
def PoolBuffer.init {requested : Nat} (buffer : PoolBuffer requested) : MQTTBuffer where
  handle := buffer.handle
  bufferState := buffer.bufferState
  bufferLength := buffer.length
  dataLength := 0
  data := buffer.data

/-! ## Events -/

/-- `MQTTPublishData_t`. The topic and the message are pointers into the buffer, so they are
given by their offsets in its data. -/
structure MQTTPublishData where
  qos : MQTTQoS
  topicOffset : Nat
  topicLength : Nat
  dataOffset : Nat
  dataLength : Nat
  buffer : MQTTBuffer

/-- The bytes of the topic a publish was received on. -/
def MQTTPublishData.topic (publish : MQTTPublishData) : List UInt8 :=
  publish.buffer.data.readBytes publish.topicOffset publish.topicLength

/-- The bytes of the received message. -/
def MQTTPublishData.message (publish : MQTTPublishData) : List UInt8 :=
  publish.buffer.data.readBytes publish.dataOffset publish.dataLength

/-- `MQTTEventCallbackParams_t`: the event type with the union member that goes with it. -/
inductive MQTTEvent where
  | publish (data : MQTTPublishData)
  | connACK (returnCode : MQTTConnACKReturnCode) (packetIdentifier : UInt16)
  | unexpectedConnACK
  | pubACK (packetIdentifier : UInt16)
  | unexpectedPubACK
  | subACK (returnCode : MQTTSubACKReturnCode) (packetIdentifier : UInt16)
  | unexpectedSubACK
  | unSubACK (packetIdentifier : UInt16)
  | unexpectedUnSubACK
  | clientDisconnected (reason : MQTTDisconnectReason)
  | packetDropped
  | timeout (packetIdentifier : UInt16)
  | pingTimeout

/-! ## Subscription manager -/

/-- A user function pointer; only its identity matters to the library. -/
abbrev FunctionPointer := Nat

/-- The `void *` the user registers with a callback. -/
abbrev CallbackContext := Nat

/-- `MQTTSubscription_t`. The filter is the used part of the array, so its length is
`usTopicFilterLength`. -/
structure MQTTSubscription where
  topicFilter : List UInt8
  publishCallbackContext : CallbackContext
  publishCallback : Option FunctionPointer
  inUse : Bool
  topicFilterType : MQTTTopicFilterType
  deriving DecidableEq, Repr

/-- `MQTTSubscriptionManager_t`. -/
structure MQTTSubscriptionManager where
  subscriptions : Vector MQTTSubscription subscriptionManagerMaxSubscriptions
  inUseSubscriptions : UInt32

/-! ## Context -/

/-- `MQTTRxMessageState_t`. -/
structure MQTTRxMessageState where
  rxNextByte : MQTTRxNextByte
  rxMessageAction : MQTTRxMessageAction
  remainingLengthFieldBytes : Nat
  totalMessageLength : Nat
  deriving DecidableEq, Repr

/-- `MQTTContext_t` without the functions registered by `MQTT_Init`, which are
`MQTTInitParams`. -/
structure MQTTContext where
  txBufferList : List MQTTBuffer
  rxBuffer : Option MQTTBuffer
  rxMessageState : MQTTRxMessageState
  rxFixedHeaderBuffer : ByteMemory
  rxMessageReceivedLength : Nat
  connectionState : MQTTConnectionState
  lastSentMessageTimestamp : UInt64
  nextPeriodicInvokeTicks : UInt32
  keepAliveActualIntervalTicks : UInt32
  pingRequestTimeoutTicks : UInt32
  waitingForPingResp : Bool
  subscriptionManager : MQTTSubscriptionManager

/-! ## Parameters of the operations -/

/-- A byte string with its 16-bit length, as every topic, client id and user name is passed. -/
structure MQTTString where
  bytes : List UInt8
  length_lt : bytes.length < 2 ^ 16

/-- `MQTTConnectParams_t`. -/
structure MQTTConnectParams where
  keepAliveIntervalSeconds : UInt16
  keepAliveActualIntervalTicks : UInt32
  pingRequestTimeoutTicks : UInt32
  clientId : MQTTString
  userName : MQTTString
  packetIdentifier : UInt16
  timeoutTicks : UInt32

/-- `MQTTSubscribeParams_t`. -/
structure MQTTSubscribeParams where
  topic : MQTTString
  qos : MQTTQoS
  packetIdentifier : UInt16
  timeoutTicks : UInt32
  publishCallbackContext : CallbackContext
  publishCallback : Option FunctionPointer

/-- `MQTTUnsubscribeParams_t`. -/
structure MQTTUnsubscribeParams where
  topic : MQTTString
  packetIdentifier : UInt16
  timeoutTicks : UInt32

/-- `MQTTPublishParams_t`; the payload has a 32-bit length. -/
structure MQTTPublishParams where
  topic : MQTTString
  qos : MQTTQoS
  data : List UInt8
  length_lt : data.length < 2 ^ 32
  packetIdentifier : UInt16
  timeoutTicks : UInt32

end TivaAws.Mqtt
