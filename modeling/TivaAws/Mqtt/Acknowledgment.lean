import TivaAws.Mqtt.Ownership
import TivaAws.Mqtt.Reading

/-!
# Acknowledgments of subscribes and unsubscribes

What a whole SUBACK or UNSUBACK does to the context when the packet it acknowledges is on the Tx
list: that packet is unlinked and the subscription manager is settled, and nothing else changes but
the receive state, which is at a packet boundary again.
-/

namespace TivaAws.Mqtt

open Session Labelled ByteMemory

variable {W : Type} {user : MQTTInitParams W} {c : MQTTContext} {w : W}

/-! ## Whole packets in pieces -/

/-- A whole packet reaches its handler, however it is cut into calls of the parser. -/
theorem parse_chunks_packet (user : MQTTInitParams W) (packet : BrokerPacket) {s : Session W}
    {chunks : List (List UInt8)} (hchunks : chunks.flatten = packet.bytes)
    (hboundary : AtBoundary s.context) (hopen : s.context.connectionState ≠ .notConnected) :
    parseChunks user chunks s = some (processPacket user packet.received s) := by
  have hwhole : parseChunks user [packet.bytes] s =
      some (processPacket user packet.received s) := by
    obtain ⟨answer, hanswer, hsession⟩ :=
      Option.map_eq_some_iff.mp (parse_packet user packet hboundary hopen)
    show (mqttParseReceivedData user packet.bytes s).bind _ = _
    rw [hanswer, ← hsession]
    rfl
  rw [parse_chunks_receive_packets user chunks s hboundary, hchunks, ← hwhole,
    parse_chunks_receive_packets user _ s hboundary, List.flatten_singleton]

/-! ## The two packets -/

/-- The two bytes of an identifier read back. -/
theorem word16_identifier (identifier : UInt16) :
    word16 (identifier >>> 8).toUInt8 identifier.toUInt8 = identifier := by
  have hmsb : (identifier >>> 8).toUInt8 = UInt8.ofNat (identifier.toNat >>> 8) := by
    rw [← UInt8.toNat_inj, UInt16.toNat_toUInt8, UInt16.toNat_shiftRight, UInt8.toNat_ofNat']
    rfl
  have hlsb : identifier.toUInt8 = UInt8.ofNat identifier.toNat := by
    rw [← UInt8.toNat_inj, UInt16.toNat_toUInt8, UInt8.toNat_ofNat']
  rw [← UInt16.toNat_inj, hmsb, hlsb]
  exact word16_length identifier.toNat_lt

/-- The SUBACK for an identifier with a return code. -/
def subackPacket (identifier : UInt16) (returnCode : UInt8) : BrokerPacket where
  controlByte := controlSUBACK
  field := [3]
  body := [(identifier >>> 8).toUInt8, identifier.toUInt8, returnCode]
  complete := ⟨[], 3, rfl, by simp, by decide⟩
  length_le := by decide
  value_eq := show Varint.value [3] = 3 by decide

/-- The UNSUBACK for an identifier. -/
def unsubackPacket (identifier : UInt16) : BrokerPacket where
  controlByte := controlUNSUBACK
  field := [2]
  body := [(identifier >>> 8).toUInt8, identifier.toUInt8]
  complete := ⟨[], 2, rfl, by simp, by decide⟩
  length_le := by decide
  value_eq := show Varint.value [2] = 2 by decide

/-! ## Handling them -/

/-- The pool does not hand out a buffer that the context holds. -/
def MQTTInitParams.GrantsFresh (user : MQTTInitParams W) (context : MQTTContext) (w : W) : Prop :=
  ∀ requested (buffer : PoolBuffer requested) w',
    user.getBuffer requested w = (some buffer, w') → buffer.handle ∉ context.places

/-- The context after an acknowledgment: a buffer is unlinked and the manager is settled. -/
structure Acknowledged (before after : MQTTContext) (buffer : MQTTBuffer)
    (manager : MQTTSubscriptionManager) : Prop where
  txBufferList : after.txBufferList = (before.unlink buffer.handle).txBufferList
  manager : after.subscriptionManager = manager
  state : after.connectionState = before.connectionState
  boundary : AtBoundary after

/-- A buffer that the pool has just granted is not one of the context. -/
theorem Stored.fresh {packet : BrokerPacket} {rxBuffer : MQTTBuffer} {stored : Session W}
    (h : Stored user packet rxBuffer c w stored) (hfresh : user.GrantsFresh c w) :
    rxBuffer.handle ∉ c.txBufferList.map MQTTBuffer.handle := by
  have hresponds := h.obtained.responses
  cases hresponds with
  | cons hobtained _ =>
      obtain ⟨requested, buffer, hgranted, hhandle⟩ := hobtained
      rw [← hhandle]
      exact fun hmem => hfresh requested buffer _ hgranted (List.mem_append_left _ hmem)

/-- Reporting the end of an operation, settling the manager and finishing the packet. -/
theorem settle_finish_acknowledged {packet : BrokerPacket} {rxBuffer buffer : MQTTBuffer}
    {stored s : Session W} (h : Stored user packet rxBuffer c w stored)
    (hfresh : user.GrantsFresh c w) (hsame : s.context = stored.context) {event : MQTTEvent}
    (hevent : ∀ publish, event ≠ .publish publish) {settle : MQTTContext → MQTTContext}
    {manager : MQTTSubscriptionManager}
    (hsettle : settle stored.context = { stored.context with subscriptionManager := manager }) :
    Acknowledged c ((finishPacket user false (prvReturnBuffer user (some buffer.handle)
      ((prvInvokeCallback user event s).2.update settle))).update
        prvResetRxMessageState).context buffer manager := by
  obtain ⟨-, hcontext⟩ := invoke_callback_spec user event hevent s
  have hreturned : (prvReturnBuffer user (some buffer.handle)
      ((prvInvokeCallback user event s).2.update settle)).context =
      { stored.context.unlink buffer.handle with subscriptionManager := manager } := by
    rw [return_buffer_context, update_context, hcontext, hsame, hsettle]
    rfl
  have hhandle : (prvReturnBuffer user (some buffer.handle)
      ((prvInvokeCallback user event s).2.update settle)).context.rxHandle =
      some rxBuffer.handle := by
    rw [hreturned]
    show stored.context.rxBuffer.map MQTTBuffer.handle = _
    rw [h.rxBuffer_eq]
    rfl
  have hnot : rxBuffer.handle ∉
      (stored.context.unlink buffer.handle).txBufferList.map MQTTBuffer.handle := by
    intro hmem
    obtain ⟨other, hother, heq⟩ := List.mem_map.mp hmem
    refine h.fresh hfresh ?_
    rw [← heq, ← h.txBufferList]
    exact List.mem_map_of_mem (List.mem_of_mem_eraseP hother)
  unfold finishPacket
  rw [if_neg Bool.false_ne_true]
  simp only
  rw [hhandle, update_context, return_buffer_context, hreturned]
  refine ⟨?_, rfl, h.state, at_boundary_reset_rx _⟩
  show ((stored.context.unlink buffer.handle).unlink rxBuffer.handle).txBufferList = _
  rw [unlink_of_not_mem hnot]
  show stored.context.txBufferList.eraseP _ = _
  rw [h.txBufferList]
  rfl

/-- A SUBACK for a SUBSCRIBE on the Tx list. -/
theorem suback_acknowledged {identifier : UInt16} {code : UInt8} {returnCode : MQTTSubACKReturnCode}
    {buffer : MQTTBuffer} (hgranted : ¬ user.Refuses (subackPacket identifier code) w)
    (hfresh : user.GrantsFresh c w)
    (hfound : prvPacketTypeFlagsIdentifierGetTxBuffer controlSUBSCRIBE flagsSUBSCRIBE identifier c =
      some buffer)
    (hcode : subACKReturnCode code = some returnCode) :
    Acknowledged c
      (processPacket user (subackPacket identifier code).received ⟨c, w, []⟩).context buffer
      (settledManager buffer (.subACK returnCode identifier) c.subscriptionManager) := by
  obtain ⟨rxBuffer, stored, hstored, hprocess⟩ :=
    process_packet_stored c (show (subackPacket identifier code).body ≠ [] by simp [subackPacket])
      hgranted
  have hfield : stored.context.rxMessageState.remainingLengthFieldBytes = 1 := hstored.fieldBytes
  have hlength : rxBuffer.dataLength = 5 := hstored.dataLength_eq
  have hsize : ∀ {i}, i < 5 → i < (subackPacket identifier code).bytes.length := fun h => h
  have hmsb : rxBuffer.data 2 = (identifier >>> 8).toUInt8 := hstored.data_eq (hsize (by decide))
  have hlsb : rxBuffer.data 3 = identifier.toUInt8 := hstored.data_eq (hsize (by decide))
  have hbyte : rxBuffer.data 4 = code := hstored.data_eq (hsize (by decide))
  have hcontrol : rxBuffer.controlByte = controlSUBACK := hstored.controlByte_eq
  have htype : rxBuffer.packetType = controlSUBACK := by
    rw [MQTTBuffer.packetType, hcontrol]
    rfl
  have hlookup : prvPacketTypeFlagsIdentifierGetTxBuffer controlSUBSCRIBE flagsSUBSCRIBE identifier
      stored.context = some buffer := by
    rw [prvPacketTypeFlagsIdentifierGetTxBuffer, hstored.txBufferList]
    exact hfound
  rw [hprocess]
  unfold prvProcessReceivedMQTTPacket
  simp only
  rw [htype, hcontrol, if_neg (by decide), if_neg (by decide), if_neg (by decide), if_pos rfl]
  unfold prvProcessReceivedSUBACK
  simp only [emit_context, hfield]
  rw [if_pos (by rw [hlength]; decide)]
  have hmatches : prvPacketTypeFlagsIdentifierGetTxBuffer controlSUBSCRIBE flagsSUBSCRIBE
      (word16 (rxBuffer.data (adjustOffset 2 1)) (rxBuffer.data (adjustOffset 3 1)))
      stored.context = some buffer := by
    show prvPacketTypeFlagsIdentifierGetTxBuffer controlSUBSCRIBE flagsSUBSCRIBE
      (word16 (rxBuffer.data 2) (rxBuffer.data 3)) stored.context = some buffer
    rw [hmsb, hlsb, word16_identifier, hlookup]
  simp only [hmatches]
  rw [show rxBuffer.data (adjustOffset 4 1) = code from hbyte, hcode]
  refine settle_finish_acknowledged hstored hfresh ?_ (by simp) ?_
  · rfl
  · rw [← hstored.manager]
    cases returnCode with
    | subACKFailure => rfl
    | successQos0 => rfl
    | successQos1 => rfl

/-- An UNSUBACK for an UNSUBSCRIBE on the Tx list. -/
theorem unsuback_acknowledged {identifier : UInt16} {buffer : MQTTBuffer}
    (hgranted : ¬ user.Refuses (unsubackPacket identifier) w) (hfresh : user.GrantsFresh c w)
    (hfound : prvPacketTypeFlagsIdentifierGetTxBuffer controlUNSUBSCRIBE flagsUNSUBSCRIBE identifier
      c = some buffer) :
    Acknowledged c (processPacket user (unsubackPacket identifier).received ⟨c, w, []⟩).context
      buffer (settledManager buffer (.unSubACK identifier) c.subscriptionManager) := by
  obtain ⟨rxBuffer, stored, hstored, hprocess⟩ :=
    process_packet_stored c (show (unsubackPacket identifier).body ≠ [] by simp [unsubackPacket])
      hgranted
  have hfield : stored.context.rxMessageState.remainingLengthFieldBytes = 1 := hstored.fieldBytes
  have hlength : rxBuffer.dataLength = 4 := hstored.dataLength_eq
  have hsize : ∀ {i}, i < 4 → i < (unsubackPacket identifier).bytes.length := fun h => h
  have hheader : rxBuffer.data.readBytes 0 2 = [controlUNSUBACK, 2] :=
    hstored.readBytes_eq 2 (le_of_lt (hsize (by decide)))
  have hmsb : rxBuffer.data 2 = (identifier >>> 8).toUInt8 := hstored.data_eq (hsize (by decide))
  have hlsb : rxBuffer.data 3 = identifier.toUInt8 := hstored.data_eq (hsize (by decide))
  have hcontrol : rxBuffer.controlByte = controlUNSUBACK := hstored.controlByte_eq
  have htype : rxBuffer.packetType = controlUNSUBACK := by
    rw [MQTTBuffer.packetType, hcontrol]
    rfl
  have hlookup : prvPacketTypeFlagsIdentifierGetTxBuffer controlUNSUBSCRIBE flagsUNSUBSCRIBE
      identifier stored.context = some buffer := by
    rw [prvPacketTypeFlagsIdentifierGetTxBuffer, hstored.txBufferList]
    exact hfound
  rw [hprocess]
  unfold prvProcessReceivedMQTTPacket
  simp only
  rw [htype, hcontrol, if_neg (by decide), if_neg (by decide), if_neg (by decide),
    if_neg (by decide), if_pos rfl]
  unfold prvProcessReceivedUNSUBACK processReceivedACK
  simp only [emit_context, hfield]
  rw [if_pos (by rw [hlength]; decide),
    if_pos (show rxBuffer.data.readBytes 0 [controlUNSUBACK, 2].length = _ from hheader)]
  have hmatches : prvPacketTypeFlagsIdentifierGetTxBuffer controlUNSUBSCRIBE flagsUNSUBSCRIBE
      (word16 (rxBuffer.data (adjustOffset 2 1)) (rxBuffer.data (adjustOffset 3 1)))
      stored.context = some buffer := by
    show prvPacketTypeFlagsIdentifierGetTxBuffer controlUNSUBSCRIBE flagsUNSUBSCRIBE
      (word16 (rxBuffer.data 2) (rxBuffer.data 3)) stored.context = some buffer
    rw [hmsb, hlsb, word16_identifier, hlookup]
  simp only [hmatches]
  refine settle_finish_acknowledged hstored hfresh ?_ (by simp) ?_
  · rfl
  · rw [← hstored.manager]
    rfl

end TivaAws.Mqtt
