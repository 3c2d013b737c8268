import TivaAws.Mqtt.PacketStream

/-!
# What handlers read of a packet

A handler reads the fields of a packet at offsets that depend on the packet. The handlers of
CONNACK, SUBACK, UNSUBACK and PUBACK compare the length of the packet with what they read. The
handler of PUBLISH does not, and the handler of CONNACK looks for the pending connection first. So a
packet is handled safely, that is within its own bytes and rejected if it is too short for its
fields, exactly when it is not one of these two kinds (`handled_safely_iff`).
-/

namespace TivaAws.Mqtt

open Session ByteMemory

variable {W : Type}

/-! ## Packets of the broker -/

/-- A whole packet, as a broker can send it: a type byte, a length field of one to four bytes and as
many bytes as that says. -/
structure BrokerPacket where
  controlByte : UInt8
  field : List UInt8
  body : List UInt8
  complete : Varint.Complete field
  length_le : field.length ≤ remainingLengthMaxBytes
  value_eq : Varint.value field = body.length

namespace BrokerPacket

/-- The packet as the receive state machine splits it. -/
def received (packet : BrokerPacket) : ReceivedPacket :=
  ⟨packet.controlByte :: packet.field, packet.body⟩

def bytes (packet : BrokerPacket) : List UInt8 := packet.received.bytes

/-- The packet type in the top nibble. -/
def packetType (packet : BrokerPacket) : UInt8 := packet.controlByte &&& topNibbleMask

/-- The topic length of a PUBLISH, zero if it is not there. -/
def topicLength (packet : BrokerPacket) : Nat :=
  match packet.body with
  | msb :: lsb :: _ => (word16 msb lsb).toNat
  | _ => 0

/-- The bytes that the fields of the packet take, as its type requires them. A PUBLISH with a QoS
that is not supported has no fields that matter. -/
def requiredBody (packet : BrokerPacket) : Nat :=
  if packet.packetType = controlPUBLISH then
    match publishQoS packet.controlByte with
    | some qos => 2 + packet.topicLength + packetIdentifierLength qos
    | none => 0
  else if packet.packetType = controlSUBACK then 3
  else if packet.packetType = controlCONNACK ∨ packet.packetType = controlPUBACK ∨
      packet.packetType = controlUNSUBACK then 2
  else 0

/-- The packet is too short for the fields its type requires. -/
def TooShort (packet : BrokerPacket) : Prop := packet.body.length < packet.requiredBody

instance (packet : BrokerPacket) : Decidable packet.TooShort :=
  inferInstanceAs (Decidable (_ < _))

end BrokerPacket

/-! ## Safe handling -/

/-- An output of rejecting a packet: nothing is sent, delivered or reported but the disconnect. -/
def MQTTOutput.OfRejection : MQTTOutput → Prop
  | .event reported | .eventCallback reported _ =>
      reported = .clientDisconnected .malformedPacket
  | .sent _ _ | .publishCallback _ _ _ _ | .taken _ => False
  | _ => True

/-- The packet has been treated as malformed. -/
structure Rejected (outputs : List MQTTOutput) (state : MQTTConnectionState) : Prop where
  closed : state = .notConnected
  reported : .event (.clientDisconnected .malformedPacket) ∈ outputs
  only : ∀ output ∈ outputs, output.OfRejection

/-- Only bytes of the packet are read or handed on, and a packet that is too short is rejected when
it is handled. -/
structure HandledSafely (packet : BrokerPacket) (outputs : List MQTTOutput)
    (state : MQTTConnectionState) : Prop where
  within : ∀ offset count, .access offset count ∈ outputs → offset + count ≤ packet.bytes.length
  rejected : packet.TooShort → .handled packet.bytes ∈ outputs → Rejected outputs state

/-- The pool has no buffer for the packet. -/
def MQTTInitParams.Refuses (user : MQTTInitParams W) (packet : BrokerPacket) (w : W) : Prop :=
  (user.getBuffer ((packet.bytes.length + sizeofMQTTBufferMetadata) % 2 ^ 32) w).1 = none

/-- The packet has a body, is too short, and is a PUBLISH or a CONNACK without a CONNECT that waits
for it. -/
def BrokerPacket.Misread (packet : BrokerPacket) (context : MQTTContext) : Prop :=
  packet.body ≠ [] ∧ packet.TooShort ∧
    (packet.packetType = controlPUBLISH ∨
      packet.controlByte = controlCONNACK ∧
        prvPacketTypeFlagsGetTxBuffer controlCONNECT flagsCONNECT context = none)

/-! ## Outputs of the primitives -/

/-- Only outputs of one kind are added. -/
def Session.Emits (Allowed : MQTTOutput → Prop) (s s' : Session W) : Prop :=
  ∃ outputs, s'.outputs = s.outputs ++ outputs ∧ ∀ output ∈ outputs, Allowed output

variable {user : MQTTInitParams W} {Allowed : MQTTOutput → Prop} {s s' s'' : Session W}

namespace Session

theorem Emits.refl (s : Session W) : Emits Allowed s s := ⟨[], by simp, by simp⟩

theorem Emits.trans (hfirst : Emits Allowed s s') (hsecond : Emits Allowed s' s'') :
    Emits Allowed s s'' := by
  obtain ⟨first, heq, hallowed⟩ := hfirst
  obtain ⟨second, heq', hallowed'⟩ := hsecond
  refine ⟨first ++ second, by rw [heq', heq, List.append_assoc], ?_⟩
  intro output hmem
  rcases List.mem_append.mp hmem with hmem | hmem
  · exact hallowed output hmem
  · exact hallowed' output hmem

theorem emits_emit {output : MQTTOutput} (h : Allowed output) (s : Session W) :
    Emits Allowed s (s.emit output) :=
  ⟨[output], rfl, by simpa using h⟩

theorem Emits.update (h : Emits Allowed s s') (change : MQTTContext → MQTTContext) :
    Emits Allowed s (s'.update change) := h

theorem Calls.emits {labels : List MQTTOutput} (h : Calls user s labels s')
    (hallowed : ∀ output ∈ labels, Allowed output) : Emits Allowed s s' :=
  ⟨labels, h.outputs, hallowed⟩

/-- Outputs are never taken back. -/
theorem Emits.mem {output : MQTTOutput} (h : Emits Allowed s s') (hmem : output ∈ s.outputs) :
    output ∈ s'.outputs := by
  obtain ⟨outputs, heq, -⟩ := h
  rw [heq]
  exact List.mem_append_left _ hmem

end Session

/-- The output marks no access to a packet. -/
def MQTTOutput.IsPlain : MQTTOutput → Prop
  | .access _ _ => False
  | _ => True

theorem plain_reported (event : MQTTEvent) (result : Bool) :
    ∀ output ∈ user.reported event result, output.IsPlain := by
  intro output hmem
  unfold MQTTInitParams.reported at hmem
  split at hmem
  · rcases List.mem_cons.mp hmem with rfl | hmem
    · exact trivial
    · rw [List.mem_singleton.mp hmem]
      exact trivial
  · rw [List.mem_singleton.mp hmem]
    exact trivial

theorem plain_clock (tickCount : UInt64) : ∀ output ∈ user.clock tickCount, output.IsPlain := by
  intro output hmem
  unfold MQTTInitParams.clock at hmem
  split at hmem
  · rw [List.mem_singleton.mp hmem]
    exact trivial
  · exact absurd hmem List.not_mem_nil

theorem plain_returns (context : MQTTContext) : ∀ output ∈ context.returns, output.IsPlain := by
  intro output hmem
  rcases List.mem_append.mp hmem with hmem | hmem
  · obtain ⟨buffer, -, rfl⟩ := List.mem_map.mp hmem
    exact trivial
  · obtain ⟨handle, -, rfl⟩ := List.mem_map.mp hmem
    exact trivial

/-- A publish is offered to the callbacks of the matching subscriptions. -/
theorem emits_invoke_matching {publish : MQTTPublishData}
    (hallowed : ∀ callback context result,
      Allowed (.publishCallback callback context publish result))
    (isMatch : MQTTSubscription → Bool) (subscriptions : List MQTTSubscription) (invoked : Bool)
    (s : Session W) :
    Emits Allowed s (invokeMatching user publish isMatch subscriptions invoked s).2.2 := by
  induction subscriptions generalizing invoked s with
  | nil => exact .refl s
  | cons subscription rest ih =>
      unfold invokeMatching
      by_cases hmatch : isMatch subscription
      · rw [if_pos hmatch]
        cases subscription.publishCallback with
        | none => exact ih invoked s
        | some callback =>
            simp only
            have hcalled : Emits Allowed s (Session.emit (.publishCallback callback
                subscription.publishCallbackContext publish
                (user.publishCallback callback subscription.publishCallbackContext publish
                  s.world).1)
                { s with
                  world := (user.publishCallback callback subscription.publishCallbackContext
                    publish s.world).2 }) :=
              emits_emit (hallowed callback _ _) _
            split_ifs
            · exact hcalled
            · exact hcalled.trans (ih true _)
      · rw [if_neg hmatch]
        exact ih invoked s

section Plain

variable (hplain : ∀ output : MQTTOutput, output.IsPlain → Allowed output)

include hplain

theorem emits_return_buffer (handle : Option MQTTBufferHandle) (s : Session W) :
    Emits Allowed s (prvReturnBuffer user handle s) := by
  cases handle with
  | none => exact .refl s
  | some handle => exact emits_emit (hplain (.returned handle) trivial) _

theorem emits_tick_count (user : MQTTInitParams W) (s : Session W) :
    Emits Allowed s (prvGetCurrentTickCount user s).2 :=
  (get_current_tick_count_spec user s).1.emits fun output hmem =>
    hplain output (plain_clock _ output hmem)

theorem emits_send_data (data : List UInt8) (s : Session W) :
    Emits Allowed s (prvSendData user data s).2 := by
  obtain ⟨count, t, hcalls, -⟩ := send_data_spec user data s
  refine hcalls.emits ?_
  intro output hmem
  unfold MQTTInitParams.transmitted at hmem
  rcases List.mem_cons.mp hmem with rfl | hmem
  · exact hplain _ trivial
  · split at hmem
    · exact hplain output (plain_clock _ output hmem)
    · exact absurd hmem List.not_mem_nil

theorem emits_event_callback (event : MQTTEvent) (s : Session W) :
    Emits Allowed s (invokeEventCallback user event s).2 := by
  unfold invokeEventCallback
  cases user.callback with
  | none => exact .refl s
  | some callback => exact emits_emit (hplain (.eventCallback event _) trivial) _

theorem emits_invoke_callback (user : MQTTInitParams W) (event : MQTTEvent) (s : Session W) :
    Emits Allowed s (prvInvokeCallback user event s).2 := by
  have hevent := emits_emit (hplain (.event event) trivial) s
  unfold prvInvokeCallback
  cases event with
  | publish publish =>
      simp only
      have hcalled : Emits Allowed s (prvInvokeSubscriptionCallbacks user publish
          (s.emit (.event (.publish publish)))).2.2 := by
        unfold prvInvokeSubscriptionCallbacks
        have hexact : Emits Allowed s (invokeMatching user publish
            (MQTTSubscription.matchesExactly publish.topic)
            s.context.subscriptionManager.subscriptions.toList false
            (s.emit (.event (.publish publish)))).2.2 :=
          hevent.trans (emits_invoke_matching (fun _ _ _ => hplain _ trivial) _ _ _ _)
        simp only
        split_ifs
        · exact hexact
        · exact hexact.trans (emits_invoke_matching (fun _ _ _ => hplain _ trivial) _ _ _ _)
      split_ifs
      · exact hcalled
      · exact hcalled.trans (emits_event_callback hplain _ _)
  | _ => exact hevent.trans (emits_event_callback hplain _ _)

theorem emits_reset_and_report (reason : MQTTDisconnectReason) (s : Session W) :
    Emits Allowed s (resetAndReport user reason s) := by
  obtain ⟨result, hcalls, -⟩ := reset_and_report_spec user reason s
  refine hcalls.emits ?_
  intro output hmem
  rcases List.mem_append.mp hmem with hmem | hmem
  · exact hplain output (plain_returns _ output hmem)
  · exact hplain output (plain_reported _ _ output hmem)

theorem emits_finish_packet (malformed : Bool) (s : Session W) :
    Emits Allowed s (finishPacket user malformed s) := by
  cases malformed with
  | false => exact emits_return_buffer hplain _ _
  | true =>
      rw [finish_packet_malformed]
      exact emits_reset_and_report hplain _ _

/-- Reporting an event and returning a buffer. -/
theorem emits_event_return (user : MQTTInitParams W) (event : MQTTEvent)
    (handle : MQTTBufferHandle) (s : Session W) :
    Emits Allowed s (prvReturnBuffer user (some handle) (prvInvokeCallback user event s).2) :=
  (emits_invoke_callback hplain user event s).trans (emits_return_buffer hplain (some handle) _)

theorem emits_accept_connection (connect : MQTTBuffer) (s : Session W) :
    Emits Allowed s (acceptConnection user connect s) := by
  have hreturned := emits_event_return hplain user
    (.connACK .connectionAccepted connect.bufferState.packetIdentifier) connect.handle s
  unfold acceptConnection
  simp only
  generalize prvReturnBuffer user (some connect.handle) (prvInvokeCallback user
    (.connACK .connectionAccepted connect.bufferState.packetIdentifier) s).2 = returned
    at hreturned ⊢
  have hopened := hreturned.update fun context => { context with connectionState := .connected }
  refine hopened.trans ((emits_tick_count hplain user _).trans ?_)
  exact emits_finish_packet hplain false _

theorem emits_refuse_connection (connect : MQTTBuffer) (returnCode : MQTTConnACKReturnCode)
    (s : Session W) : Emits Allowed s (refuseConnection user connect returnCode s) := by
  have hreturned := emits_event_return hplain user
    (.connACK returnCode connect.bufferState.packetIdentifier) connect.handle s
  exact (hreturned.trans (emits_reset_and_report hplain _ _)).trans
    (emits_finish_packet hplain false _)

theorem emits_notice_finish (event : MQTTEvent) (s : Session W) :
    Emits Allowed s (finishPacket user false (prvInvokeCallback user event s).2) :=
  (emits_invoke_callback hplain user event s).trans (emits_finish_packet hplain false _)

theorem emits_settle_finish (event : MQTTEvent) (settle : MQTTContext → MQTTContext)
    (handle : MQTTBufferHandle) (s : Session W) :
    Emits Allowed s (finishPacket user false (prvReturnBuffer user (some handle)
      ((prvInvokeCallback user event s).2.update settle))) :=
  (((emits_invoke_callback hplain user event s).update settle).trans
    (emits_return_buffer hplain (some handle) _)).trans (emits_finish_packet hplain false _)

end Plain

/-! ## Reading within the packet -/

/-- A marked access stays below a size. -/
def MQTTOutput.Within (size : Nat) : MQTTOutput → Prop
  | .access offset count => offset + count ≤ size
  | _ => True

theorem MQTTOutput.IsPlain.within {output : MQTTOutput} {size : Nat} (h : output.IsPlain) :
    output.Within size := by
  cases output with
  | access offset count => exact absurd h id
  | _ => exact trivial

theorem emits_access {offset count size : Nat} (h : offset + count ≤ size) (s : Session W) :
    Emits (MQTTOutput.Within size) s (s.emit (.access offset count)) :=
  emits_emit h s

variable {rxBuffer : MQTTBuffer}

/-- The length of a CONNACK is checked before it is read. -/
theorem connack_within (user : MQTTInitParams W) (rxBuffer : MQTTBuffer) (s : Session W) :
    Emits (MQTTOutput.Within rxBuffer.dataLength) s
      (prvProcessReceivedCONNACK user rxBuffer s) := by
  have hplain : ∀ output : MQTTOutput, output.IsPlain → output.Within rxBuffer.dataLength :=
    fun _ => MQTTOutput.IsPlain.within
  unfold prvProcessReceivedCONNACK
  cases prvPacketTypeFlagsGetTxBuffer controlCONNECT flagsCONNECT s.context with
  | none => exact emits_notice_finish hplain _ _
  | some connect =>
      have hmalformed : ∀ s' : Session W, Emits (MQTTOutput.Within rxBuffer.dataLength) s'
          (finishPacket user true (prvReturnBuffer user (some connect.handle) s')) :=
        fun s' => (emits_return_buffer hplain _ s').trans (emits_finish_packet hplain true _)
      simp only
      by_cases hlength : rxBuffer.dataLength ≥ defaultCONNACKParameters.length
      · have hfour : 4 ≤ rxBuffer.dataLength := hlength
        rw [if_pos hlength]
        have htwo : 0 + fixedHeaderMinSize ≤ rxBuffer.dataLength := by
          rw [fixedHeaderMinSize]
          omega
        refine (emits_access htwo s).trans ?_
        split
        · refine (emits_access (show 3 + 1 ≤ _ from hfour) _).trans ?_
          cases connACKReturnCode (rxBuffer.data 3) with
          | none => exact hmalformed _
          | some returnCode =>
              simp only
              split
              · exact emits_accept_connection hplain connect _
              · exact emits_refuse_connection hplain connect returnCode _
        · exact hmalformed _
      · rw [if_neg hlength]
        exact hmalformed s

/-- The length of a SUBACK is checked before it is read. -/
theorem suback_within (user : MQTTInitParams W) (rxBuffer : MQTTBuffer) (s : Session W) :
    Emits (MQTTOutput.Within rxBuffer.dataLength) s
      (prvProcessReceivedSUBACK user rxBuffer s) := by
  have hplain : ∀ output : MQTTOutput, output.IsPlain → output.Within rxBuffer.dataLength :=
    fun _ => MQTTOutput.IsPlain.within
  unfold prvProcessReceivedSUBACK
  simp only
  by_cases hlength : rxBuffer.dataLength >
      adjustOffset 4 s.context.rxMessageState.remainingLengthFieldBytes
  · rw [if_pos hlength]
    generalize s.context.rxMessageState.remainingLengthFieldBytes = fieldBytes at hlength ⊢
    rw [adjustOffset] at hlength
    have hidentifier : adjustOffset 2 fieldBytes + 2 ≤ rxBuffer.dataLength := by
      rw [adjustOffset]
      omega
    have hcode : adjustOffset 4 fieldBytes + 1 ≤ rxBuffer.dataLength := by
      rw [adjustOffset]
      omega
    refine (emits_access hidentifier s).trans ?_
    cases prvPacketTypeFlagsIdentifierGetTxBuffer controlSUBSCRIBE flagsSUBSCRIBE
        (word16 (rxBuffer.data (adjustOffset 2 fieldBytes))
          (rxBuffer.data (adjustOffset 3 fieldBytes)))
        (s.emit (.access (adjustOffset 2 fieldBytes) 2)).context with
    | none => exact emits_notice_finish hplain _ _
    | some subscribe =>
        refine (emits_access hcode _).trans ?_
        cases subACKReturnCode (rxBuffer.data (adjustOffset 4 fieldBytes)) with
        | none => exact emits_finish_packet hplain true _
        | some returnCode => exact emits_settle_finish hplain _ _ _ _
  · rw [if_neg hlength]
    exact emits_finish_packet hplain true s

/-- UNSUBACK and PUBACK have a length field of one byte when their fixed header is the expected
one, so the identifier follows it. -/
theorem ack_within (user : MQTTInitParams W) {fixedHeader : List UInt8}
    (find : UInt16 → MQTTContext → Option MQTTBuffer)
    (unexpected : MQTTEvent) (acknowledged : UInt16 → MQTTEvent)
    (settle : MQTTBuffer → MQTTContext → MQTTContext) (htwo : fixedHeader.length = 2)
    (s : Session W)
    (hfield : rxBuffer.data.readBytes 0 fixedHeader.length = fixedHeader →
      s.context.rxMessageState.remainingLengthFieldBytes = 1) :
    Emits (MQTTOutput.Within rxBuffer.dataLength) s
      (processReceivedACK user fixedHeader find unexpected acknowledged settle rxBuffer s) := by
  have hplain : ∀ output : MQTTOutput, output.IsPlain → output.Within rxBuffer.dataLength :=
    fun _ => MQTTOutput.IsPlain.within
  unfold processReceivedACK
  by_cases hlength : rxBuffer.dataLength ≥ fixedHeader.length + 2
  · rw [if_pos hlength]
    have hstart : 0 + fixedHeader.length ≤ rxBuffer.dataLength := by omega
    refine (emits_access hstart s).trans ?_
    by_cases hheader : rxBuffer.data.readBytes 0 fixedHeader.length = fixedHeader
    · rw [if_pos hheader]
      simp only [emit_context, hfield hheader]
      have hidentifier : adjustOffset 2 1 + 2 ≤ rxBuffer.dataLength := by
        rw [adjustOffset]
        omega
      refine (emits_access hidentifier _).trans ?_
      cases find (word16 (rxBuffer.data (adjustOffset 2 1)) (rxBuffer.data (adjustOffset 3 1)))
          s.context with
      | none => exact emits_notice_finish hplain _ _
      | some txBuffer => exact emits_settle_finish hplain _ _ _ _
    · rw [if_neg hheader]
      exact emits_finish_packet hplain true _
  · rw [if_neg hlength]
    exact emits_finish_packet hplain true s

/-! ## Accesses to a PUBLISH -/

/-- The marked accesses in a list of outputs. -/
def accesses (outputs : List MQTTOutput) : List (Nat × Nat) :=
  outputs.filterMap fun output =>
    match output with
    | .access offset count => some (offset, count)
    | _ => none

theorem mem_accesses {outputs : List MQTTOutput} {offset count : Nat} :
    (offset, count) ∈ accesses outputs ↔ .access offset count ∈ outputs := by
  rw [accesses, List.mem_filterMap]
  constructor
  · rintro ⟨output, hmem, hsome⟩
    cases output with
    | access =>
        cases hsome
        exact hmem
    | _ => simp at hsome
  · exact fun hmem => ⟨_, hmem, rfl⟩

theorem Session.Emits.accesses_eq (h : Emits MQTTOutput.IsPlain s s') :
    accesses s'.outputs = accesses s.outputs := by
  obtain ⟨outputs, heq, hplain⟩ := h
  have hnone : accesses outputs = [] := by
    refine List.filterMap_eq_nil_iff.mpr ?_
    intro output hmem
    have houtput := hplain output hmem
    cases output with
    | access => exact absurd houtput id
    | _ => rfl
  rw [heq, accesses, List.filterMap_append]
  exact (congrArg _ hnone).trans (List.append_nil _)

theorem accesses_emit (offset count : Nat) (s : Session W) :
    accesses (s.emit (.access offset count)).outputs =
      accesses s.outputs ++ [(offset, count)] := by
  rw [accesses, Session.emit, List.filterMap_append]
  rfl

/-- What a PUBLISH is read at: its topic length, its packet identifier if it has one, its topic and
its message. -/
def publishAccesses (qos : MQTTQoS) (publish : MQTTPublishData) : List (Nat × Nat) :=
  (publish.topicOffset - 2, 2) ::
    (if qos = .qos1 then [(publish.topicOffset + publish.topicLength, 2)] else []) ++
    [(publish.topicOffset, publish.topicLength), (publish.dataOffset, publish.dataLength)]

theorem publish_accesses (user : MQTTInitParams W) {qos : MQTTQoS}
    (hqos : publishQoS rxBuffer.controlByte = some qos) (s : Session W) :
    accesses (prvProcessReceivedPublish user rxBuffer s).outputs =
      accesses s.outputs ++
        publishAccesses qos (receivedPublishData qos rxBuffer s.context.rxMessageState) := by
  unfold prvProcessReceivedPublish publishAccesses
  rw [hqos]
  simp only
  generalize receivedPublishData qos rxBuffer s.context.rxMessageState = publish
  have hplain : ∀ output : MQTTOutput, output.IsPlain → output.IsPlain := fun _ => id
  -- Reporting the publish and the fate of its buffer mark no access.
  have hreported : ∀ handed : Session W, accesses (if
      (prvInvokeCallback user (.publish publish) handed).1 = true then
        (prvInvokeCallback user (.publish publish) handed).2.emit (.taken rxBuffer.handle)
      else prvReturnBuffer user
        (prvInvokeCallback user (.publish publish) handed).2.context.rxHandle
        (prvInvokeCallback user (.publish publish) handed).2).outputs =
      accesses handed.outputs := by
    intro handed
    have hevent := emits_invoke_callback hplain user (.publish publish) handed
    refine Session.Emits.accesses_eq ?_
    split
    · exact hevent.trans (emits_emit trivial _)
    · exact hevent.trans (emits_return_buffer hplain _ _)
  rw [hreported, accesses_emit, accesses_emit]
  by_cases hone : qos = .qos1
  · simp only [if_pos hone]
    rw [(emits_send_data hplain _ _).accesses_eq, accesses_emit, accesses_emit]
    simp only [List.append_assoc, List.cons_append, List.nil_append]
  · simp only [if_neg hone]
    rw [accesses_emit]
    simp only [List.append_assoc, List.cons_append, List.nil_append]

/-! ## A packet in its buffer -/

namespace BrokerPacket

variable (packet : BrokerPacket)

theorem length_bytes : packet.bytes.length = packet.field.length + 1 + packet.body.length := by
  simp only [bytes, received, ReceivedPacket.bytes, List.length_append, List.length_cons]

theorem field_length_pos : 0 < packet.field.length := packet.complete.length_pos

theorem length_bytes_lt : packet.bytes.length + sizeofMQTTBufferMetadata < 2 ^ 32 := by
  have hvalue := Varint.value_lt packet.field
  have hpow : 128 ^ packet.field.length ≤ 128 ^ 4 :=
    Nat.pow_le_pow_right (by omega) packet.length_le
  have hfield := packet.length_le
  have hbody := packet.value_eq
  rw [remainingLengthMaxBytes] at hfield
  rw [length_bytes, sizeofMQTTBufferMetadata]
  omega

/-- A length field that starts with a byte below 128 is that byte. -/
theorem field_of_second_byte {second : UInt8} (hsecond : ¬ Varint.Continues second)
    (h : packet.bytes.take 2 = [packet.controlByte, second]) : packet.field = [second] := by
  have hfield := packet.complete
  obtain ⟨front, last, hsplit, hfront, hlast⟩ := packet.complete
  have hstart : [second] <+: packet.field := by
    rw [hsplit]
    cases front with
    | nil =>
        rw [bytes, received, ReceivedPacket.bytes, hsplit] at h
        have hlast : last = second := by simpa using h
        rw [hlast]
        exact List.prefix_refl _
    | cons byte front =>
        rw [bytes, received, ReceivedPacket.bytes, hsplit] at h
        have hbyte : byte = second := by simpa using h
        rw [hbyte]
        exact ⟨front ++ [last], rfl⟩
  exact (Varint.complete_prefix_code.eq_of_prefix ⟨[], second, rfl, by simp, hsecond⟩ hfield
    hstart).symm

end BrokerPacket

/-- The packet is in the buffer that reaches a handler, and the receive state says so. -/
structure Stored (user : MQTTInitParams W) (packet : BrokerPacket) (rxBuffer : MQTTBuffer)
    (c : MQTTContext) (w : W) (stored : Session W) : Prop where
  packet_eq : rxBuffer.packet = packet.bytes
  fieldBytes : stored.context.rxMessageState.remainingLengthFieldBytes = packet.field.length
  total : stored.context.rxMessageState.totalMessageLength = packet.bytes.length
  rxBuffer_eq : stored.context.rxBuffer = some rxBuffer
  txBufferList : stored.context.txBufferList = c.txBufferList
  manager : stored.context.subscriptionManager = c.subscriptionManager
  state : stored.context.connectionState = c.connectionState
  obtained : Calls user ⟨c, w, []⟩ [.obtained rxBuffer.handle] stored

variable {packet : BrokerPacket} {c : MQTTContext} {w : W} {stored : Session W}

/-- A packet that the pool grants a buffer for reaches a handler in that buffer. -/
theorem process_packet_stored (c : MQTTContext) (hbody : packet.body ≠ [])
    (hgranted : ¬ user.Refuses packet w) :
    ∃ rxBuffer stored, Stored user packet rxBuffer c w stored ∧
      processPacket user packet.received ⟨c, w, []⟩ =
        (prvProcessReceivedMQTTPacket user rxBuffer stored).update prvResetRxMessageState := by
  have hlength : Varint.value packet.field + (packet.controlByte :: packet.field).length =
      packet.bytes.length := by
    rw [packet.length_bytes, packet.value_eq, List.length_cons]
    omega
  unfold processPacket receiveBody
  rw [if_neg (show packet.received.body ≠ [] from hbody)]
  simp only [BrokerPacket.received, List.tail_cons, hlength]
  unfold prvGetFreeBuffer
  simp only [update_world]
  unfold MQTTInitParams.Refuses at hgranted
  generalize hanswer :
    user.getBuffer ((packet.bytes.length + sizeofMQTTBufferMetadata) % 2 ^ 32) w =
    answer at hgranted ⊢
  obtain ⟨buffer, w'⟩ := answer
  cases buffer with
  | none => exact absurd rfl hgranted
  | some buffer =>
      refine ⟨_, _, ⟨?_, rfl, hlength, rfl, rfl, rfl, rfl, rfl, ?_⟩, rfl⟩
      · exact readBytes_writeBytes _ 0 packet.bytes
      · exact .cons ⟨_, buffer, hanswer, rfl⟩ (.nil _)

/-- A packet that the pool refuses a buffer for is reported as dropped. -/
theorem process_packet_refused (c : MQTTContext) (hbody : packet.body ≠ [])
    (hrefused : user.Refuses packet w) :
    ∃ s' : Session W, s'.outputs = [.refused ((packet.bytes.length + sizeofMQTTBufferMetadata) %
        2 ^ 32)] ∧
      processPacket user packet.received ⟨c, w, []⟩ =
        (prvInvokeCallback user .packetDropped s').2.update prvResetRxMessageState := by
  have hlength : Varint.value packet.field + (packet.controlByte :: packet.field).length =
      packet.bytes.length := by
    rw [packet.length_bytes, packet.value_eq, List.length_cons]
    omega
  unfold processPacket receiveBody
  rw [if_neg (show packet.received.body ≠ [] from hbody)]
  simp only [BrokerPacket.received, List.tail_cons, hlength]
  unfold prvGetFreeBuffer
  simp only [update_world]
  unfold MQTTInitParams.Refuses at hrefused
  generalize user.getBuffer ((packet.bytes.length + sizeofMQTTBufferMetadata) % 2 ^ 32) w = answer
    at hrefused ⊢
  obtain ⟨buffer, w'⟩ := answer
  cases buffer with
  | none => exact ⟨_, rfl, rfl⟩
  | some buffer => exact absurd hrefused (by simp)

namespace Stored

variable {rxBuffer : MQTTBuffer} (h : Stored user packet rxBuffer c w stored)

include h

theorem dataLength_eq : rxBuffer.dataLength = packet.bytes.length := by
  have hlength := congrArg List.length h.packet_eq
  rwa [MQTTBuffer.packet, length_readBytes] at hlength

theorem readBytes_eq (count : Nat) (hcount : count ≤ packet.bytes.length) :
    rxBuffer.data.readBytes 0 count = packet.bytes.take count := by
  have hpacket := h.packet_eq
  rw [MQTTBuffer.packet, h.dataLength_eq, ← Nat.add_sub_cancel' hcount, readBytes_add] at hpacket
  rw [← hpacket, List.take_left' (length_readBytes _ _ _)]

theorem data_eq {i : Nat} (hi : i < packet.bytes.length) : rxBuffer.data i = packet.bytes[i] := by
  have hbyte := List.getElem_of_eq (h.readBytes_eq packet.bytes.length (le_refl _))
    (i := i) (by simpa using hi)
  simpa [readBytes] using hbyte

theorem controlByte_eq : rxBuffer.controlByte = packet.controlByte := by
  have hpos : 0 < packet.bytes.length := by
    rw [packet.length_bytes]
    omega
  exact h.data_eq hpos

theorem packetType_eq : rxBuffer.packetType = packet.packetType := by
  rw [MQTTBuffer.packetType, h.controlByte_eq]
  rfl

/-- The offsets of the library count from the end of the length field. -/
theorem data_body {i : Nat} (hi : i < packet.body.length) :
    rxBuffer.data (adjustOffset (2 + i) stored.context.rxMessageState.remainingLengthFieldBytes) =
      packet.body[i] := by
  have hlength := packet.length_bytes
  have hoffset : adjustOffset (2 + i) stored.context.rxMessageState.remainingLengthFieldBytes =
      (packet.controlByte :: packet.field).length + i := by
    rw [h.fieldBytes, adjustOffset, List.length_cons]
    omega
  rw [hoffset, h.data_eq (by rw [List.length_cons]; omega)]
  simp only [BrokerPacket.bytes, BrokerPacket.received, ReceivedPacket.bytes]
  rw [List.getElem_append_right (by omega)]
  simp

/-- The offset of the topic, which follows the fixed header and the topic length. -/
theorem topicOffset_eq (qos : MQTTQoS) :
    (receivedPublishData qos rxBuffer stored.context.rxMessageState).topicOffset =
      packet.field.length + 3 := by
  show adjustOffset 4 stored.context.rxMessageState.remainingLengthFieldBytes = _
  rw [h.fieldBytes, adjustOffset]
  omega

/-- With two bytes of body the topic length is the one that the packet says. -/
theorem topicLength_eq (qos : MQTTQoS) (hbody : 2 ≤ packet.body.length) :
    (receivedPublishData qos rxBuffer stored.context.rxMessageState).topicLength =
      packet.topicLength := by
  obtain ⟨msb, lsb, rest, hsplit⟩ : ∃ msb lsb rest, packet.body = msb :: lsb :: rest := by
    match packet.body, hbody with
    | msb :: lsb :: rest, _ => exact ⟨msb, lsb, rest, rfl⟩
  have hmsb := (h.data_body (i := 0) (by omega)).trans (List.getElem_of_eq hsplit _)
  have hlsb := (h.data_body (i := 1) (by omega)).trans (List.getElem_of_eq hsplit _)
  simp only [receivedPublishData, BrokerPacket.topicLength, hsplit]
  exact congrArg UInt16.toNat (congrArg₂ word16 hmsb hlsb)

end Stored

/-! ## Each kind of packet -/

/-- A packet that is found malformed is rejected. -/
theorem rejected_reset (honly : ∀ output ∈ s.outputs, output.OfRejection) :
    Rejected (resetAndReport user .malformedPacket s).outputs
      (resetAndReport user .malformedPacket s).context.connectionState := by
  obtain ⟨result, hcalls, hcontext⟩ := reset_and_report_spec user .malformedPacket s
  refine ⟨by rw [hcontext]; rfl, ?_, ?_⟩
  · rw [hcalls.outputs, MQTTInitParams.reported]
    simp
  · intro output hmem
    rw [hcalls.outputs] at hmem
    rcases List.mem_append.mp hmem with hmem | hmem
    · exact honly output hmem
    rcases List.mem_append.mp hmem with hmem | hmem
    · rcases List.mem_append.mp hmem with hmem | hmem
      · obtain ⟨buffer, -, rfl⟩ := List.mem_map.mp hmem
        exact trivial
      · obtain ⟨handle, -, rfl⟩ := List.mem_map.mp hmem
        exact trivial
    · unfold MQTTInitParams.reported at hmem
      rcases List.mem_cons.mp hmem with rfl | hmem
      · rfl
      · split at hmem
        · rw [List.mem_singleton.mp hmem]
          rfl
        · exact absurd hmem List.not_mem_nil

theorem publish_qos_supported {controlByte : UInt8} {qos : MQTTQoS}
    (h : publishQoS controlByte = some qos) : qos = .qos0 ∨ qos = .qos1 := by
  unfold publishQoS at h
  split_ifs at h
  · exact Or.inl (Option.some.inj h).symm
  · exact Or.inr (Option.some.inj h).symm

/-- The reads of a PUBLISH lie within it exactly when it is long enough for its fields. -/
theorem publish_fits_iff (h : Stored user packet rxBuffer c w stored) (hbody : packet.body ≠ [])
    (htype : packet.packetType = controlPUBLISH) {qos : MQTTQoS}
    (hqos : publishQoS packet.controlByte = some qos) :
    (∀ access ∈ publishAccesses qos
        (receivedPublishData qos rxBuffer stored.context.rxMessageState),
      access.1 + access.2 ≤ packet.bytes.length) ↔ ¬ packet.TooShort := by
  have hlength := packet.length_bytes
  have hbound := packet.length_bytes_lt
  have htopic := h.topicOffset_eq qos
  have hpos := List.length_pos_iff.mpr hbody
  have hrequired : packet.requiredBody =
      2 + packet.topicLength + packetIdentifierLength qos := by
    rw [BrokerPacket.requiredBody, if_pos htype, hqos]
  unfold BrokerPacket.TooShort publishAccesses
  rw [hrequired]
  generalize hpublish : receivedPublishData qos rxBuffer stored.context.rxMessageState = publish
    at htopic ⊢
  have hdata : publish.dataOffset =
      publish.topicOffset + publish.topicLength + packetIdentifierLength qos := by
    rw [← hpublish]
    rfl
  have hmessage : publish.dataLength = sub32 packet.bytes.length publish.dataOffset := by
    rw [← hpublish, ← h.total]
    rfl
  have hidentifier : qos = .qos1 ∨ packetIdentifierLength qos = 0 := by
    rcases publish_qos_supported hqos with rfl | rfl
    · exact Or.inr rfl
    · exact Or.inl rfl
  constructor
  · intro hfits
    have hfirst := hfits (publish.topicOffset - 2, 2) (by simp)
    have htwo : 2 ≤ packet.body.length := by
      simp only at hfirst
      omega
    have hsame : publish.topicLength = packet.topicLength := by
      rw [← hpublish]
      exact h.topicLength_eq qos htwo
    rcases hidentifier with rfl | hzero
    · have hread := hfits (publish.topicOffset + publish.topicLength, 2) (by simp)
      have hlen : packetIdentifierLength .qos1 = 2 := rfl
      simp only at hread
      omega
    -- With QoS 0 the topic is the last thing whose length is not checked.
    · have hread := hfits (publish.topicOffset, publish.topicLength) (by simp)
      simp only at hread
      omega
  · intro hlong access hmem
    have htwo : 2 ≤ packet.body.length := by omega
    have hsame : publish.topicLength = packet.topicLength := by
      rw [← hpublish]
      exact h.topicLength_eq qos htwo
    rw [sizeofMQTTBufferMetadata] at hbound
    have hinside : publish.dataOffset ≤ packet.bytes.length := by omega
    rw [sub32_of_le hinside (by omega)] at hmessage
    rcases List.mem_append.mp hmem with hmem | hmem
    · rcases List.mem_cons.mp hmem with rfl | hmem
      · simp only
        omega
      · by_cases hone : qos = .qos1
        · rw [if_pos hone, List.mem_singleton] at hmem
          have hlen : packetIdentifierLength qos = 2 := by rw [hone]; rfl
          subst hmem
          simp only
          omega
        · rw [if_neg hone] at hmem
          exact absurd hmem List.not_mem_nil
    · rcases List.mem_cons.mp hmem with rfl | hmem
      · simp only
        omega
      · rw [List.mem_singleton.mp hmem]
        simp only
        omega

/-- A fixed header that says two bytes is followed by two bytes. -/
theorem length_of_fixed_header (h : Stored user packet rxBuffer c w stored) {code : UInt8}
    (hheader : rxBuffer.data.readBytes 0 2 = [code, 2]) :
    packet.field = [2] ∧ packet.body.length = 2 := by
  have hpos := packet.field_length_pos
  have hlength := packet.length_bytes
  rw [h.readBytes_eq 2 (by omega)] at hheader
  have hcode : packet.controlByte = code := by
    rw [BrokerPacket.bytes, BrokerPacket.received, ReceivedPacket.bytes, List.cons_append,
      List.take_succ_cons] at hheader
    exact (List.cons.inj hheader).1
  rw [← hcode] at hheader
  have hfield := packet.field_of_second_byte (show ¬ Varint.Continues 2 by decide) hheader
  refine ⟨hfield, ?_⟩
  rw [← packet.value_eq, hfield]
  rfl

/-- A handler that finds its packet malformed rejects it. -/
theorem rejected_finish (honly : ∀ output ∈ s.outputs, output.OfRejection) :
    Rejected (finishPacket user true s).outputs
      (finishPacket user true s).context.connectionState := by
  rw [finish_packet_malformed]
  exact rejected_reset honly

theorem of_rejection_emit {output : MQTTOutput} (honly : ∀ other ∈ s.outputs, other.OfRejection)
    (houtput : output.OfRejection) : ∀ other ∈ (s.emit output).outputs, other.OfRejection := by
  intro other hmem
  rcases List.mem_append.mp hmem with hmem | hmem
  · exact honly other hmem
  · rw [List.mem_singleton.mp hmem]
    exact houtput

/-- A CONNACK that is too short is rejected when a CONNECT waits for it. -/
theorem connack_rejected (h : Stored user packet rxBuffer c w stored) {connect : MQTTBuffer}
    (hfind : prvPacketTypeFlagsGetTxBuffer controlCONNECT flagsCONNECT s.context = some connect)
    (honly : ∀ output ∈ s.outputs, output.OfRejection) (hshort : packet.body.length < 2) :
    Rejected (prvProcessReceivedCONNACK user rxBuffer s).outputs
      (prvProcessReceivedCONNACK user rxBuffer s).context.connectionState := by
  unfold prvProcessReceivedCONNACK
  simp only [hfind]
  split_ifs with hlength hheader
  · have hbody := (length_of_fixed_header h hheader).2
    omega
  · refine rejected_finish (of_rejection_emit ?_ trivial)
    exact of_rejection_emit honly trivial
  · exact rejected_finish (of_rejection_emit honly trivial)

/-- A SUBACK that is too short is rejected. -/
theorem suback_rejected (h : Stored user packet rxBuffer c w stored)
    (hfield : s.context.rxMessageState.remainingLengthFieldBytes = packet.field.length)
    (honly : ∀ output ∈ s.outputs, output.OfRejection) (hshort : packet.body.length < 3) :
    Rejected (prvProcessReceivedSUBACK user rxBuffer s).outputs
      (prvProcessReceivedSUBACK user rxBuffer s).context.connectionState := by
  have hlength : ¬ rxBuffer.dataLength >
      adjustOffset 4 s.context.rxMessageState.remainingLengthFieldBytes := by
    rw [hfield, h.dataLength_eq, packet.length_bytes, adjustOffset]
    omega
  unfold prvProcessReceivedSUBACK
  simp only [if_neg hlength]
  exact rejected_finish honly

/-- An UNSUBACK or PUBACK that is too short is rejected. -/
theorem ack_rejected (h : Stored user packet rxBuffer c w stored) (code : UInt8)
    (find : UInt16 → MQTTContext → Option MQTTBuffer) (unexpected : MQTTEvent)
    (acknowledged : UInt16 → MQTTEvent) (settle : MQTTBuffer → MQTTContext → MQTTContext)
    (honly : ∀ output ∈ s.outputs, output.OfRejection) (hshort : packet.body.length < 2) :
    let handled := processReceivedACK user [code, 2] find unexpected acknowledged settle rxBuffer s
    Rejected handled.outputs handled.context.connectionState := by
  intro handled
  simp only [handled]
  unfold processReceivedACK
  split_ifs with hlength hheader
  · have hbody := (length_of_fixed_header h hheader).2
    omega
  · exact rejected_finish (of_rejection_emit honly trivial)
  · exact rejected_finish honly

/-! ## Whole packets -/

theorem Session.Emits.within {size : Nat} (h : Emits (MQTTOutput.Within size) s s')
    (hbefore : ∀ output ∈ s.outputs, output.Within size) :
    ∀ offset count, .access offset count ∈ s'.outputs → offset + count ≤ size := by
  intro offset count hmem
  obtain ⟨outputs, heq, hwithin⟩ := h
  rw [heq] at hmem
  rcases List.mem_append.mp hmem with hmem | hmem
  · exact hbefore _ hmem
  · exact hwithin _ hmem

/-- A PINGRESP is read within its fixed header. -/
theorem pingresp_within {size : Nat} (htwo : 2 ≤ size) (s : Session W) :
    Emits (MQTTOutput.Within size) s (prvProcessReceivedPINGRESP user s) := by
  have hplain : ∀ output : MQTTOutput, output.IsPlain → output.Within size :=
    fun _ => MQTTOutput.IsPlain.within
  have hread : 0 + pingRespPacket.length ≤ size := by
    show 0 + 2 ≤ size
    omega
  unfold prvProcessReceivedPINGRESP
  simp only
  split_ifs
  · refine (emits_access hread s).trans ?_
    exact emits_tick_count hplain user _
  · exact emits_access hread s
  · exact (emits_access hread s).trans (emits_reset_and_report hplain _ _)
  · exact emits_reset_and_report hplain _ _

/-- The outputs so far are those of a rejection and read only bytes of the packet. -/
def BeginsSafely (packet : BrokerPacket) (s : Session W) : Prop :=
  ∀ output ∈ s.outputs, output.Within packet.bytes.length ∧ output.OfRejection

/-- A whole packet reaches the dispatch, which reads its control byte. -/
theorem BeginsSafely.dispatch (h : BeginsSafely packet s) (whole : List UInt8) :
    BeginsSafely packet ((s.emit (.handled whole)).emit (.access 0 1)) := by
  have hlength := packet.length_bytes
  have hone : 0 + 1 ≤ packet.bytes.length := by omega
  intro output hmem
  rcases List.mem_append.mp hmem with hmem | hmem
  · rcases List.mem_append.mp hmem with hmem | hmem
    · exact h output hmem
    · rw [List.mem_singleton.mp hmem]
      exact ⟨trivial, trivial⟩
  · rw [List.mem_singleton.mp hmem]
    exact ⟨hone, trivial⟩

/-- A packet that is read within its length, and is long enough or rejected, is handled safely. -/
theorem BeginsSafely.handled (hbegins : BeginsSafely packet s)
    (hwithin : Emits (MQTTOutput.Within packet.bytes.length) s s')
    (hrejected : packet.TooShort → Rejected s'.outputs s'.context.connectionState) :
    HandledSafely packet s'.outputs s'.context.connectionState :=
  ⟨hwithin.within fun output hmem => (hbegins output hmem).1, fun hshort _ => hrejected hshort⟩

/-- A packet that is found malformed at once is handled safely. -/
theorem BeginsSafely.reset (hbegins : BeginsSafely packet s) :
    HandledSafely packet (resetAndReport user .malformedPacket s).outputs
      (resetAndReport user .malformedPacket s).context.connectionState :=
  hbegins.handled (emits_reset_and_report (fun _ => MQTTOutput.IsPlain.within) _ _)
    fun _ => rejected_reset fun output hmem => (hbegins output hmem).2

/-- A packet without a body is handled safely. -/
theorem fixed_header_only_safe (user : MQTTInitParams W) (hbegins : BeginsSafely packet s)
    (hbyte : s.context.rxFixedHeaderBuffer 0 = packet.controlByte) :
    HandledSafely packet (prvProcessReceivedFixedHeaderOnlyMQTTPacket user s).outputs
      (prvProcessReceivedFixedHeaderOnlyMQTTPacket user s).context.connectionState := by
  have hlength := packet.length_bytes
  have hpos := packet.field_length_pos
  have hbegins' := hbegins.dispatch
    (s.context.rxFixedHeaderBuffer.readBytes 0 s.context.rxMessageReceivedLength)
  unfold prvProcessReceivedFixedHeaderOnlyMQTTPacket
  simp only [emit_context, hbyte]
  split_ifs with hping
  · refine hbegins'.handled (pingresp_within (by omega) _) ?_
    intro hshort
    have hrequired : packet.requiredBody = 0 := by
      rw [BrokerPacket.requiredBody, BrokerPacket.packetType, hping]
      rfl
    rw [BrokerPacket.TooShort, hrequired] at hshort
    exact absurd hshort (Nat.not_lt_zero _)
  · exact hbegins'.reset

/-- A PUBLISH in its buffer is handled safely exactly when it is long enough. -/
theorem publish_safe_iff (h : Stored user packet rxBuffer c w stored) (hbody : packet.body ≠ [])
    (htype : packet.packetType = controlPUBLISH) (hbegins : BeginsSafely packet s)
    (hsame : s.context.rxMessageState = stored.context.rxMessageState) :
    HandledSafely packet (prvProcessReceivedPublish user rxBuffer s).outputs
      (prvProcessReceivedPublish user rxBuffer s).context.connectionState ↔
      ¬ packet.TooShort := by
  cases hqos : publishQoS packet.controlByte with
  | none =>
      have hrequired : packet.requiredBody = 0 := by
        rw [BrokerPacket.requiredBody, if_pos htype, hqos]
      have hlong : ¬ packet.TooShort := by
        rw [BrokerPacket.TooShort, hrequired]
        exact Nat.not_lt_zero _
      unfold prvProcessReceivedPublish
      rw [h.controlByte_eq, hqos]
      exact iff_of_true hbegins.reset hlong
  | some qos =>
      have haccesses := publish_accesses user (h.controlByte_eq ▸ hqos) s
      rw [hsame] at haccesses
      rw [← publish_fits_iff h hbody htype hqos]
      constructor
      · intro hsafe access hmem
        refine hsafe.within access.1 access.2 (mem_accesses.mp ?_)
        rw [haccesses]
        exact List.mem_append_right _ hmem
      · intro hfits
        refine ⟨?_, ?_⟩
        · intro offset count hmem
          have hread := mem_accesses.mpr hmem
          rw [haccesses] at hread
          rcases List.mem_append.mp hread with hread | hread
          · exact (hbegins _ (mem_accesses.mp hread)).1
          · exact hfits _ hread
        · intro hshort
          exact absurd hshort ((publish_fits_iff h hbody htype hqos).mp hfits)

/-- An UNSUBACK or PUBACK in its buffer is handled safely. -/
theorem ack_safe (h : Stored user packet rxBuffer c w stored) (code : UInt8)
    (find : UInt16 → MQTTContext → Option MQTTBuffer) (unexpected : MQTTEvent)
    (acknowledged : UInt16 → MQTTEvent) (settle : MQTTBuffer → MQTTContext → MQTTContext)
    (hbegins : BeginsSafely packet s)
    (hsame : s.context.rxMessageState = stored.context.rxMessageState)
    (hrequired : packet.requiredBody = 2) :
    let handled := processReceivedACK user [code, 2] find unexpected acknowledged settle rxBuffer s
    HandledSafely packet handled.outputs handled.context.connectionState := by
  intro handled
  have hfield : rxBuffer.data.readBytes 0 [code, 2].length = [code, 2] →
      s.context.rxMessageState.remainingLengthFieldBytes = 1 := by
    intro hheader
    rw [hsame, h.fieldBytes, (length_of_fixed_header h hheader).1]
    rfl
  have hwithin := ack_within user find unexpected acknowledged settle rfl s hfield
  rw [h.dataLength_eq] at hwithin
  refine hbegins.handled hwithin ?_
  intro hshort
  rw [BrokerPacket.TooShort, hrequired] at hshort
  exact ack_rejected h code find unexpected acknowledged settle
    (fun output hmem => (hbegins output hmem).2) hshort

/-- A SUBACK in its buffer is handled safely. -/
theorem suback_safe (h : Stored user packet rxBuffer c w stored) (hbegins : BeginsSafely packet s)
    (hsame : s.context.rxMessageState = stored.context.rxMessageState)
    (hrequired : packet.requiredBody = 3) :
    HandledSafely packet (prvProcessReceivedSUBACK user rxBuffer s).outputs
      (prvProcessReceivedSUBACK user rxBuffer s).context.connectionState := by
  have hwithin := suback_within user rxBuffer s
  rw [h.dataLength_eq] at hwithin
  refine hbegins.handled hwithin ?_
  intro hshort
  rw [BrokerPacket.TooShort, hrequired] at hshort
  refine suback_rejected h ?_ (fun output hmem => (hbegins output hmem).2) hshort
  rw [hsame, h.fieldBytes]

/-- A CONNACK in its buffer is handled safely exactly when it is long enough or a CONNECT waits for
it: without one it is reported before its length is looked at. -/
theorem connack_safe_iff (h : Stored user packet rxBuffer c w stored)
    (hbegins : BeginsSafely packet s) (hhandled : .handled packet.bytes ∈ s.outputs)
    (hsame : s.context.txBufferList = c.txBufferList) (hrequired : packet.requiredBody = 2) :
    HandledSafely packet (prvProcessReceivedCONNACK user rxBuffer s).outputs
      (prvProcessReceivedCONNACK user rxBuffer s).context.connectionState ↔
      ¬ (packet.TooShort ∧
        prvPacketTypeFlagsGetTxBuffer controlCONNECT flagsCONNECT c = none) := by
  have hwithin := connack_within user rxBuffer s
  rw [h.dataLength_eq] at hwithin
  have hfind : prvPacketTypeFlagsGetTxBuffer controlCONNECT flagsCONNECT s.context =
      prvPacketTypeFlagsGetTxBuffer controlCONNECT flagsCONNECT c := by
    rw [prvPacketTypeFlagsGetTxBuffer, hsame]
    rfl
  constructor
  · rintro hsafe ⟨hshort, hnone⟩
    rw [hnone] at hfind
    have hreported : Emits (fun _ => True) (s.emit (.event .unexpectedConnACK))
        (prvProcessReceivedCONNACK user rxBuffer s) := by
      unfold prvProcessReceivedCONNACK
      rw [hfind]
      exact (emits_event_callback (fun _ _ => trivial) _ _).trans
        (emits_finish_packet (fun _ _ => trivial) false _)
    have hevent := hreported.mem (List.mem_append_right _ List.mem_cons_self)
    have hpacket := hreported.mem (List.mem_append_left _ hhandled)
    exact MQTTEvent.noConfusion ((hsafe.rejected hshort hpacket).only _ hevent)
  · intro hlong
    refine hbegins.handled hwithin ?_
    intro hshort
    cases hconnect : prvPacketTypeFlagsGetTxBuffer controlCONNECT flagsCONNECT c with
    | none => exact absurd ⟨hshort, hconnect⟩ hlong
    | some connect =>
        rw [BrokerPacket.TooShort, hrequired] at hshort
        exact connack_rejected h (hfind.trans hconnect)
          (fun output hmem => (hbegins output hmem).2) hshort

/-- A packet in its buffer is handled safely exactly when it is not misread. -/
theorem packet_safe_iff (h : Stored user packet rxBuffer c w stored) (hbody : packet.body ≠ []) :
    HandledSafely packet (prvProcessReceivedMQTTPacket user rxBuffer stored).outputs
      (prvProcessReceivedMQTTPacket user rxBuffer stored).context.connectionState ↔
      ¬ packet.Misread c := by
  have hbegins : BeginsSafely packet
      ((stored.emit (.handled rxBuffer.packet)).emit (.access 0 1)) := by
    refine BeginsSafely.dispatch ?_ _
    intro output hmem
    rw [h.obtained.outputs, List.nil_append, List.mem_singleton] at hmem
    subst hmem
    exact ⟨trivial, trivial⟩
  have hhandled : .handled packet.bytes ∈
      ((stored.emit (.handled rxBuffer.packet)).emit (.access 0 1)).outputs := by
    rw [h.packet_eq]
    simp [Session.emit]
  have hcontext : ((stored.emit (.handled rxBuffer.packet)).emit (.access 0 1)).context =
    stored.context := rfl
  unfold prvProcessReceivedMQTTPacket
  simp only
  generalize (stored.emit (.handled rxBuffer.packet)).emit (.access 0 1) = s
    at hbegins hhandled hcontext ⊢
  have hsame : s.context.rxMessageState = stored.context.rxMessageState := by rw [hcontext]
  -- Of the other packets nothing is misread.
  have hother : packet.packetType ≠ controlPUBLISH → packet.controlByte ≠ controlCONNACK →
      ¬ packet.Misread c := by
    rintro hpublish hconnack ⟨-, -, hmisread | ⟨hmisread, -⟩⟩
    · exact hpublish hmisread
    · exact hconnack hmisread
  rw [h.packetType_eq, h.controlByte_eq]
  split_ifs with hpublish hconnack hpuback hsuback hunsuback
  · rw [publish_safe_iff h hbody hpublish hbegins hsame]
    exact not_congr ⟨fun hshort => ⟨hbody, hshort, Or.inl hpublish⟩, fun hmisread => hmisread.2.1⟩
  · have hrequired : packet.requiredBody = 2 := by
      rw [BrokerPacket.requiredBody, BrokerPacket.packetType, hconnack]
      rfl
    rw [connack_safe_iff h hbegins hhandled (by rw [hcontext, h.txBufferList]) hrequired]
    refine not_congr ⟨fun hshort => ⟨hbody, hshort.1, Or.inr ⟨hconnack, hshort.2⟩⟩, ?_⟩
    rintro ⟨-, hshort, hmisread | ⟨-, hnone⟩⟩
    · exact absurd hmisread hpublish
    · exact ⟨hshort, hnone⟩
  · have hrequired : packet.requiredBody = 2 := by
      rw [BrokerPacket.requiredBody, BrokerPacket.packetType, hpuback]
      rfl
    exact iff_of_true (ack_safe h _ _ _ _ _ hbegins hsame hrequired) (hother hpublish hconnack)
  · have hrequired : packet.requiredBody = 3 := by
      rw [BrokerPacket.requiredBody, BrokerPacket.packetType, hsuback]
      rfl
    exact iff_of_true (suback_safe h hbegins hsame hrequired) (hother hpublish hconnack)
  · have hrequired : packet.requiredBody = 2 := by
      rw [BrokerPacket.requiredBody, BrokerPacket.packetType, hunsuback]
      rfl
    exact iff_of_true (ack_safe h _ _ _ _ _ hbegins hsame hrequired) (hother hpublish hconnack)
  · exact iff_of_true hbegins.reset (hother hpublish hconnack)

/-- A packet that is dropped for want of a buffer is not read. -/
theorem refused_safe (hbody : packet.body ≠ []) (hrefused : user.Refuses packet w) :
    HandledSafely packet (processPacket user packet.received ⟨c, w, []⟩).outputs
      (processPacket user packet.received ⟨c, w, []⟩).context.connectionState := by
  obtain ⟨s', houtputs, hprocess⟩ := process_packet_refused c hbody hrefused
  have hdropped : Emits (fun output => output.IsPlain ∧ ∀ whole, output ≠ .handled whole) s'
      (prvInvokeCallback user .packetDropped s').2 := by
    obtain ⟨hcalls, -⟩ := invoke_callback_spec user .packetDropped (by simp) s'
    refine hcalls.emits ?_
    intro output hmem
    refine ⟨plain_reported _ _ output hmem, ?_⟩
    rintro whole rfl
    unfold MQTTInitParams.reported at hmem
    split at hmem <;> simp at hmem
  obtain ⟨outputs, heq, honly⟩ := hdropped
  rw [hprocess]
  refine ⟨?_, ?_⟩
  · intro offset count hmem
    have hmem' : .access offset count ∈ (prvInvokeCallback user .packetDropped s').2.outputs := hmem
    rw [heq, houtputs] at hmem'
    rcases List.mem_cons.mp hmem' with hmem' | hmem'
    · cases hmem'
    · exact absurd (honly _ hmem').1 id
  · intro _ hmem
    have hmem' : .handled packet.bytes ∈
      (prvInvokeCallback user .packetDropped s').2.outputs := hmem
    rw [heq, houtputs] at hmem'
    rcases List.mem_cons.mp hmem' with hmem' | hmem'
    · cases hmem'
    · exact absurd rfl ((honly _ hmem').2 packet.bytes)

/-- The parser hands a whole packet to its handler. -/
theorem parse_packet (user : MQTTInitParams W) (packet : BrokerPacket) {s : Session W}
    (hboundary : AtBoundary s.context) (hopen : s.context.connectionState ≠ .notConnected) :
    (mqttParseReceivedData user packet.bytes s).map Prod.snd =
      some (processPacket user packet.received s) := by
  have hparses : Parses user packet.bytes s (processPacket user packet.received s) := by
    obtain ⟨controlByte, _, body, ⟨front, last, rfl, hfront, hlast⟩, hlength, hvalue⟩ := packet
    rw [List.length_append, List.length_singleton] at hlength
    have hwhole := parses_packet hopen hboundary controlByte hfront hlast hlength hvalue.symm
      (.done (processPacket user ⟨controlByte :: (front ++ [last]), body⟩ s))
    rw [List.append_nil] at hwhole
    simpa only [BrokerPacket.bytes, BrokerPacket.received, ReceivedPacket.bytes,
      List.cons_append, List.append_assoc, List.nil_append] using hwhole
  obtain ⟨s', hparse, hparses', -⟩ := parse_received_data_parses user packet.bytes s
    hboundary.rx_invariant
  rw [hparse, hparses'.unique hparses]

/-- On an open connection the parser handles a packet safely, that is it reads only bytes of the
packet and rejects one that is too short for its fields, exactly if the pool has no buffer for the
packet or the packet is neither a PUBLISH that is too short nor a CONNACK that is too short and that
no CONNECT waits for. -/
theorem handled_safely_iff (user : MQTTInitParams W) (packet : BrokerPacket) {c : MQTTContext}
    (hboundary : AtBoundary c) (hopen : c.connectionState ≠ .notConnected) (w : W) :
    ∃ s', (mqttParseReceivedData user packet.bytes ⟨c, w, []⟩).map Prod.snd = some s' ∧
      (HandledSafely packet s'.outputs s'.context.connectionState ↔
        user.Refuses packet w ∨ ¬ packet.Misread c) := by
  refine ⟨_, parse_packet user packet hboundary hopen, ?_⟩
  by_cases hbody : packet.body = []
  · have hnot : ¬ packet.Misread c := fun hmisread => hmisread.1 hbody
    refine iff_of_true ?_ (Or.inr hnot)
    rw [processPacket, if_pos (show packet.received.body = [] from hbody)]
    refine fixed_header_only_safe user (s := Session.update
      (MQTTContext.completeHeader packet.received.header) ⟨c, w, []⟩) ?_ ?_
    · intro output hmem
      exact absurd hmem List.not_mem_nil
    · show c.rxFixedHeaderBuffer.writeBytes 0 (packet.controlByte :: packet.field) (0 + 0) = _
      rw [writeBytes_inside _ (by simp)]
      rfl
  · by_cases hrefused : user.Refuses packet w
    · exact iff_of_true (refused_safe hbody hrefused) (Or.inl hrefused)
    · obtain ⟨rxBuffer, stored, hstored, hprocess⟩ := process_packet_stored c hbody hrefused
      rw [hprocess]
      refine (packet_safe_iff hstored hbody).trans ?_
      exact ⟨Or.inr, fun hor => hor.resolve_left hrefused⟩

theorem complete_three : Varint.Complete [3] := ⟨[], 3, rfl, by simp, by decide⟩

theorem length_three : ([3] : List UInt8).length ≤ remainingLengthMaxBytes := by decide

/-- A PUBLISH of one byte of body whose topic should have five. -/
def overrunPublish : BrokerPacket where
  controlByte := controlPUBLISH
  field := [3]
  body := [0, 5, 0x61]
  complete := complete_three
  length_le := length_three
  value_eq := by decide

/-- A client whose connection has been accepted. -/
def acceptedClient : List (Bench × Op) :=
  [(⟨1, 10, 100, false⟩, .connect benchConnect),
    (⟨2, 11, 100, false⟩, .parseReceivedData acceptingConnACK)]

/-- The topic that the callback gets reaches past the end of the packet. -/
theorem overrun_publish_not_safe :
    ∃ history c s', Run benchUser blankContext history c ∧ c.connectionState = .connected ∧
      (mqttParseReceivedData benchUser overrunPublish.bytes
        ⟨c, ⟨3, 12, 100, false⟩, []⟩).map Prod.snd = some s' ∧
      ¬ HandledSafely overrunPublish s'.outputs s'.context.connectionState := by
  have hrun : Run benchUser blankContext _ _ :=
    run_of_replayed (show (replay benchUser acceptedClient _).isSome from rfl)
  refine ⟨_, _, _, hrun, by decide +kernel,
    parse_packet benchUser overrunPublish ⟨rfl, rfl, rfl⟩ (by decide +kernel), ?_⟩
  intro hsafe
  have hread : (4, 5) ∈ accesses (processPacket benchUser overrunPublish.received
      ⟨(replayed benchUser acceptedClient (mqttInit blankContext)).2,
        ⟨3, 12, 100, false⟩, []⟩).outputs := by decide +kernel
  exact absurd (hsafe.within 4 5 (mem_accesses.mp hread)) (by decide)

/-- A PUBLISH with the topic that it says. -/
def fittingPublish : BrokerPacket where
  controlByte := controlPUBLISH
  field := [4]
  body := [0, 1, 0x61, 0x62]
  complete := ⟨[], 4, rfl, by simp, by decide⟩
  length_le := by decide
  value_eq := by decide

theorem handled_safely_fitting_publish :
    ∃ history c s', Run benchUser blankContext history c ∧ c.connectionState = .connected ∧
      (mqttParseReceivedData benchUser fittingPublish.bytes
        ⟨c, ⟨3, 12, 100, false⟩, []⟩).map Prod.snd = some s' ∧
      HandledSafely fittingPublish s'.outputs s'.context.connectionState := by
  have hrun : Run benchUser blankContext _ _ :=
    run_of_replayed (show (replay benchUser acceptedClient _).isSome from rfl)
  obtain ⟨s', hparse, hsafe⟩ := handled_safely_iff benchUser fittingPublish
    (c := (replayed benchUser acceptedClient (mqttInit blankContext)).2) ⟨rfl, rfl, rfl⟩
    (by decide +kernel) ⟨3, 12, 100, false⟩
  have hlong : ¬ fittingPublish.TooShort := by decide
  exact ⟨_, _, s', hrun, by decide +kernel, hparse,
    hsafe.mpr (Or.inr fun hmisread => hlong hmisread.2.1)⟩

end TivaAws.Mqtt
