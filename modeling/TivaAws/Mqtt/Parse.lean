import TivaAws.Mqtt.Handlers

/-!
# Parsing received data

`MQTT_ParseReceivedData`. One iteration of its loop is `parseIteration`, on the received bytes
that are not yet processed. The iteration records the copies it makes, so that their bounds can
be stated, and whether its assertions hold. The loop is cut off after as many iterations as there
are bytes; `none` stands for running into that bound and for the use of a `NULL` Rx buffer.
-/

namespace TivaAws.Mqtt

open ByteMemory

variable {W : Type} (user : MQTTInitParams W)

/-- One copy into an array of `size` bytes. -/
structure Copy where
  offset : Nat
  count : Nat
  size : Nat
  deriving DecidableEq, Repr

/-- What one iteration does: the bytes it consumes, the session after it, the return code if it
leaves the loop, the copies it makes and whether its assertions hold. -/
structure ParseIteration (W : Type) where
  consumed : Nat
  session : Session W
  exit : Option MQTTReturnCode
  copies : List Copy
  asserts : Bool

/-- `mqttCOPY_BYTES` of one byte into the fixed header buffer. -/
def MQTTContext.copyHeaderByte (data : List UInt8) (context : MQTTContext) : MQTTContext :=
  { context with
    rxFixedHeaderBuffer :=
      context.rxFixedHeaderBuffer.writeBytes context.rxMessageReceivedLength (data.take 1)
    rxMessageReceivedLength := context.rxMessageReceivedLength + 1 }

/-- `mqttCOPY_BYTES` into the data of a buffer. -/
def MQTTBuffer.copyBytes (bytes : List UInt8) (buffer : MQTTBuffer) : MQTTBuffer :=
  { buffer with
    data := buffer.data.writeBytes buffer.dataLength bytes
    dataLength := buffer.dataLength + bytes.length }

/-- Copy the fixed header to the start of a new Rx buffer. -/
def MQTTBuffer.copyHeader (context : MQTTContext) (rxBuffer : MQTTBuffer) : MQTTBuffer :=
  { rxBuffer with
    data := rxBuffer.data.writeBytes 0
      (context.rxFixedHeaderBuffer.readBytes 0 context.rxMessageReceivedLength)
    dataLength := context.rxMessageReceivedLength }

/-- Go on with storing the body of the message. -/
def MQTTContext.startStoring (rxBuffer : MQTTBuffer) (context : MQTTContext) : MQTTContext :=
  { context with
    rxBuffer := some rxBuffer
    rxMessageState.rxNextByte := .message
    rxMessageState.rxMessageAction := .store }

/-- Go on with dropping the body of the message. -/
def MQTTContext.startDropping (context : MQTTContext) : MQTTContext :=
  { context with
    rxBuffer := none
    rxMessageState.rxNextByte := .message
    rxMessageState.rxMessageAction := .drop }

/-- The fixed header is complete and a body follows: get a buffer and store the body, or drop it
when there is none. -/
def startMessage (s : Session W) : Session W × List Copy :=
  let answer := prvGetFreeBuffer user s.context.rxMessageState.totalMessageLength s
  match answer.1 with
  | some rxBuffer =>
      (answer.2.update fun context => context.startStoring (rxBuffer.copyHeader context),
        [⟨0, answer.2.context.rxMessageReceivedLength, rxBuffer.effectiveLength⟩])
  | none => (answer.2.update MQTTContext.startDropping, [])

/-- Decode the "Remaining Length" in the fixed header buffer. -/
def MQTTContext.decodeLength (context : MQTTContext) : MQTTContext :=
  let decoded := prvDecodeRemainingLength fun i => context.rxFixedHeaderBuffer (1 + i)
  { context with
    rxMessageState.remainingLengthFieldBytes := decoded.1
    rxMessageState.totalMessageLength :=
      decoded.2.getD context.rxMessageState.totalMessageLength + context.rxMessageReceivedLength }

/-- The last byte of the "Remaining Length" has been received: decode the length, and process
the packet if it is complete. -/
def completeFixedHeader (s : Session W) : Session W × List Copy :=
  let s := s.update MQTTContext.decodeLength
  if s.context.rxMessageState.totalMessageLength = s.context.rxMessageReceivedLength then
    ((prvProcessReceivedFixedHeaderOnlyMQTTPacket user s).update prvResetRxMessageState, [])
  else startMessage user s

/-- The control byte is copied, and the "Remaining Length" comes next. -/
def MQTTContext.copyPacketType (data : List UInt8) (context : MQTTContext) : MQTTContext :=
  { context.copyHeaderByte data with rxMessageState.rxNextByte := .packetLength }

/-- The iteration in the `eMQTTRxNextBytePacketType` state. -/
def receivePacketType (data : List UInt8) (s : Session W) : ParseIteration W where
  consumed := 1
  session := s.update (MQTTContext.copyPacketType data)
  exit := none
  copies := [⟨s.context.rxMessageReceivedLength, 1, fixedHeaderMaxSize⟩]
  asserts := s.context.rxMessageReceivedLength == 0 && s.context.rxBuffer.isNone

/-- The iteration in the `eMQTTRxNextBytePacketLength` state. -/
def receivePacketLength (data : List UInt8) (s : Session W) : ParseIteration W :=
  let copy : Copy := ⟨s.context.rxMessageReceivedLength, 1, fixedHeaderMaxSize⟩
  let asserts := decide (s.context.rxMessageReceivedLength < fixedHeaderMaxSize)
  let s := s.update (MQTTContext.copyHeaderByte data)
  if s.context.rxFixedHeaderBuffer (s.context.rxMessageReceivedLength - 1) &&& 0x80 ≠ 0 then
    if s.context.rxMessageReceivedLength ≥ fixedHeaderMaxSize then
      { consumed := 1, session := resetAndReport user .malformedPacket s,
        exit := some .malformedPacketReceived, copies := [copy], asserts }
    else { consumed := 1, session := s, exit := none, copies := [copy], asserts }
  else
    let completed := completeFixedHeader user s
    { consumed := 1, session := completed.1, exit := none, copies := copy :: completed.2, asserts }

/-- Put the Rx buffer into the context. -/
def MQTTContext.setRxBuffer (rxBuffer : MQTTBuffer) (context : MQTTContext) : MQTTContext :=
  { context with rxBuffer := some rxBuffer }

/-- Count received bytes. -/
def MQTTContext.countBytes (count : Nat) (context : MQTTContext) : MQTTContext :=
  { context with rxMessageReceivedLength := context.rxMessageReceivedLength + count }

/-- The iteration that stores bytes of a message in the Rx buffer. -/
def storeMessage (data : List UInt8) (rxBuffer : MQTTBuffer) (s : Session W) :
    ParseIteration W :=
  let expectedBytes := sub32 s.context.rxMessageState.totalMessageLength rxBuffer.dataLength
  let unprocessedBytes := data.length
  if unprocessedBytes < expectedBytes then
    { consumed := unprocessedBytes
      session := s.update (MQTTContext.setRxBuffer (rxBuffer.copyBytes data))
      exit := none
      copies := [⟨rxBuffer.dataLength, unprocessedBytes, rxBuffer.effectiveLength⟩]
      asserts := true }
  else
    let received := rxBuffer.copyBytes (data.take expectedBytes)
    let s := s.update (MQTTContext.setRxBuffer received)
    { consumed := expectedBytes
      session := (prvProcessReceivedMQTTPacket user received s).update prvResetRxMessageState
      exit := none
      copies := [⟨rxBuffer.dataLength, expectedBytes, rxBuffer.effectiveLength⟩]
      asserts := true }

/-- The iteration that drops bytes of a message. -/
def dropMessage (data : List UInt8) (s : Session W) : ParseIteration W :=
  let expectedBytes :=
    sub32 s.context.rxMessageState.totalMessageLength s.context.rxMessageReceivedLength
  let unprocessedBytes := data.length
  if unprocessedBytes < expectedBytes then
    { consumed := unprocessedBytes
      session := s.update (MQTTContext.countBytes unprocessedBytes)
      exit := none, copies := [], asserts := true }
  else
    let s := s.update (MQTTContext.countBytes expectedBytes)
    { consumed := expectedBytes
      session := (prvInvokeCallback user .packetDropped s).2.update prvResetRxMessageState
      exit := none, copies := [], asserts := true }

/-- One iteration of the loop of `MQTT_ParseReceivedData` on the unprocessed bytes. -/
def parseIteration (data : List UInt8) (s : Session W) : Option (ParseIteration W) :=
  if s.context.connectionState = .notConnected then
    some { consumed := 0, session := s, exit := some .clientNotConnected, copies := [],
           asserts := true }
  else
    match s.context.rxMessageState.rxNextByte with
    | .packetType => some (receivePacketType data s)
    | .packetLength => some (receivePacketLength user data s)
    | .message =>
        match s.context.rxMessageState.rxMessageAction with
        | .store => s.context.rxBuffer.map fun rxBuffer => storeMessage user data rxBuffer s
        | .drop => some (dropMessage user data s)

/-- The loop of `MQTT_ParseReceivedData`, at most `rounds` iterations. -/
def parseLoop : Nat → List UInt8 → Session W → Option (MQTTReturnCode × Session W)
  | 0, data, s => if data = [] then some (.success, s) else none
  | rounds + 1, data, s =>
      if data = [] then some (.success, s)
      else do
        let iteration ← parseIteration user data s
        match iteration.exit with
        | some returnCode => some (returnCode, iteration.session)
        | none => parseLoop rounds (data.drop iteration.consumed) iteration.session

/-- `MQTT_ParseReceivedData`. -/
def mqttParseReceivedData (data : List UInt8) (s : Session W) :
    Option (MQTTReturnCode × Session W) :=
  parseLoop user data.length data s

end TivaAws.Mqtt
