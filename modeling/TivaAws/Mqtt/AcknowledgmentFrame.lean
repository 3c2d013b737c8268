import TivaAws.Mqtt.Acknowledgment

/-!
# What an acknowledgment touches

A SUBACK, an UNSUBACK or a PUBACK ends the first request on the Tx list that has its type and its
identifier, whatever else the list holds. That request leaves the list, its end is reported once,
and every other buffer stays where it is. An acknowledgment that no request waits for is reported
as unexpected and changes nothing.
-/

namespace TivaAws.Mqtt

open Session ByteMemory

variable {W : Type} {user : MQTTInitParams W} {s s' s'' : Session W} {rxBuffer : MQTTBuffer}

/-! ## Acknowledgments -/

/-- The byte of a SUBACK for a return code. -/
def MQTTSubACKReturnCode.toUInt8 : MQTTSubACKReturnCode → UInt8
  | .successQos0 => 0
  | .successQos1 => 1
  | .subACKFailure => 128

theorem sub_ack_return_code_to_uint8 (returnCode : MQTTSubACKReturnCode) :
    subACKReturnCode returnCode.toUInt8 = some returnCode := by
  cases returnCode with
  | successQos0 => rfl
  | successQos1 => rfl
  | subACKFailure => rfl

/-- A well-formed acknowledgment with what it carries besides the identifier. A SUBACK has a return
code for each filter of its SUBSCRIBE. -/
inductive Acknowledgment where
  | subACK (returnCode : MQTTSubACKReturnCode) (further : List UInt8)
  | unSubACK
  | pubACK

namespace Acknowledgment

def controlByte : Acknowledgment → UInt8
  | .subACK _ _ => controlSUBACK
  | .unSubACK => controlUNSUBACK
  | .pubACK => controlPUBACK

/-- What follows the identifier. -/
def payload : Acknowledgment → List UInt8
  | .subACK returnCode further => returnCode.toUInt8 :: further
  | .unSubACK => []
  | .pubACK => []

/-- The packet after its fixed header. -/
def body (identifier : UInt16) (ack : Acknowledgment) : List UInt8 :=
  (identifier >>> 8).toUInt8 :: identifier.toUInt8 :: ack.payload

/-- The bytes are the "Remaining Length" field. That of an UNSUBACK or a PUBACK is one byte. -/
def IsField (identifier : UInt16) (field : List UInt8) : Acknowledgment → Prop
  | .subACK returnCode further =>
      Varint.Complete field ∧ field.length ≤ remainingLengthMaxBytes ∧
        Varint.value field = (body identifier (.subACK returnCode further)).length
  | .unSubACK => field = [2]
  | .pubACK => field = [2]

/-- The buffer holds a request that waits for this kind of acknowledgment. -/
def isRequest (buffer : MQTTBuffer) : Acknowledgment → Bool
  | .subACK _ _ => buffer.packetType == controlSUBSCRIBE && buffer.packetFlags == flagsSUBSCRIBE
  | .unSubACK => buffer.packetType == controlUNSUBSCRIBE && buffer.packetFlags == flagsUNSUBSCRIBE
  | .pubACK => buffer.packetType == controlPUBLISH

/-- The buffer holds the kind of request it acknowledges, with its identifier. -/
def acknowledges (identifier : UInt16) (ack : Acknowledgment) (buffer : MQTTBuffer) : Bool :=
  ack.isRequest buffer && buffer.bufferState.packetIdentifier == identifier

/-- The event of an acknowledgment that a request waits for. -/
def event (identifier : UInt16) : Acknowledgment → MQTTEvent
  | .subACK returnCode _ => .subACK returnCode identifier
  | .unSubACK => .unSubACK identifier
  | .pubACK => .pubACK identifier

/-- The event of an acknowledgment that no request waits for. -/
def unexpected : Acknowledgment → MQTTEvent
  | .subACK _ _ => .unexpectedSubACK
  | .unSubACK => .unexpectedUnSubACK
  | .pubACK => .unexpectedPubACK

theorem event_not_publish (identifier : UInt16) (ack : Acknowledgment) (publish : MQTTPublishData) :
    ack.event identifier ≠ .publish publish := by
  cases ack with
  | subACK => exact fun h => (by cases h)
  | unSubACK => exact fun h => (by cases h)
  | pubACK => exact fun h => (by cases h)

theorem unexpected_not_publish (ack : Acknowledgment) (publish : MQTTPublishData) :
    ack.unexpected ≠ .publish publish := by
  cases ack with
  | subACK => exact fun h => (by cases h)
  | unSubACK => exact fun h => (by cases h)
  | pubACK => exact fun h => (by cases h)

/-- A whole acknowledgment is in the Rx buffer. -/
structure ReceivedIn (ack : Acknowledgment) (identifier : UInt16) (rxBuffer : MQTTBuffer)
    (context : MQTTContext) : Prop where
  rxBuffer_eq : context.rxBuffer = some rxBuffer
  packet_eq : ∃ field, ack.IsField identifier field ∧
    context.rxMessageState.remainingLengthFieldBytes = field.length ∧
    rxBuffer.packet = ack.controlByte :: (field ++ ack.body identifier)

end Acknowledgment

/-! ## Reading a packet -/

/-- The output marks a packet or bytes of it that are read. -/
def MQTTOutput.IsReading : MQTTOutput → Prop
  | .access _ _ | .handled _ => True
  | _ => False

/-- Only bytes of the packet are read. -/
def Session.Reads (user : MQTTInitParams W) (s s' : Session W) : Prop :=
  s'.context = s.context ∧
    ∃ reading, (∀ output ∈ reading, output.IsReading) ∧ Calls user s reading s'

theorem Session.Reads.access (user : MQTTInitParams W) (s : Session W) (offset count : Nat) :
    Session.Reads user s (s.emit (.access offset count)) := by
  refine ⟨rfl, [.access offset count], ?_, calls_access offset count⟩
  intro output hmem
  rw [List.mem_singleton.mp hmem]
  trivial

theorem Session.Reads.handled (user : MQTTInitParams W) (s : Session W) (packet : List UInt8) :
    Session.Reads user s (s.emit (.handled packet)) := by
  refine ⟨rfl, [.handled packet], ?_, calls_handled packet⟩
  intro output hmem
  rw [List.mem_singleton.mp hmem]
  trivial

theorem Session.Reads.trans (h : Session.Reads user s s') (h' : Session.Reads user s' s'') :
    Session.Reads user s s'' := by
  obtain ⟨hcontext, reading, hreading, hcalls⟩ := h
  obtain ⟨hcontext', reading', hreading', hcalls'⟩ := h'
  refine ⟨hcontext'.trans hcontext, reading ++ reading', ?_, hcalls.trans hcalls'⟩
  intro output hmem
  rcases List.mem_append.mp hmem with hmem | hmem
  · exact hreading output hmem
  · exact hreading' output hmem

/-! ## The end of a handler -/

/-- Finishing a packet returns the Rx buffer and changes nothing. -/
theorem finish_packet_spec (user : MQTTInitParams W) (hrx : s.context.rxBuffer = some rxBuffer)
    (hfresh : rxBuffer.handle ∉ s.context.txBufferList.map MQTTBuffer.handle) :
    Calls user s [.returned rxBuffer.handle] (finishPacket user false s) ∧
      (finishPacket user false s).context = s.context := by
  have hhandle : s.context.rxHandle = some rxBuffer.handle := by
    unfold MQTTContext.rxHandle
    rw [hrx]
    rfl
  unfold finishPacket
  rw [if_neg Bool.false_ne_true]
  simp only
  rw [hhandle]
  refine ⟨calls_return_buffer rxBuffer.handle s, ?_⟩
  rw [return_buffer_context, unlink_of_not_mem hfresh]

/-- An acknowledgment that no request waits for. -/
theorem unexpected_finish (hreads : Session.Reads user s s')
    (hrx : s.context.rxBuffer = some rxBuffer)
    (hfresh : rxBuffer.handle ∉ s.context.txBufferList.map MQTTBuffer.handle) {event : MQTTEvent}
    (hevent : ∀ publish, event ≠ .publish publish) :
    let finished := finishPacket user false (prvInvokeCallback user event s').2
    ∃ reading result, (∀ output ∈ reading, MQTTOutput.IsReading output) ∧
      finished.context = s.context ∧
      Calls user s (reading ++ (user.reported event result ++ [.returned rxBuffer.handle]))
        finished := by
  obtain ⟨hcontext, reading, hreading, hcalls⟩ := hreads
  obtain ⟨hreport, hreported⟩ := invoke_callback_spec user event hevent s'
  rw [← hcontext, ← hreported] at hrx hfresh
  obtain ⟨hreturn, hfinished⟩ := finish_packet_spec user hrx hfresh
  exact ⟨reading, _, hreading, hfinished.trans (hreported.trans hcontext),
    hcalls.trans (hreport.trans hreturn)⟩

/-- An acknowledgment that a request waits for. -/
theorem expected_finish (hreads : Session.Reads user s s')
    (hrx : s.context.rxBuffer = some rxBuffer) (hdistinct : s.context.places.Nodup)
    {event : MQTTEvent} (hevent : ∀ publish, event ≠ .publish publish)
    {before after : List MQTTBuffer} {request : MQTTBuffer}
    (hlist : s.context.txBufferList = before ++ request :: after)
    {settle : MQTTContext → MQTTContext}
    (hsettle : ∀ context : MQTTContext, settle context = { context with
      subscriptionManager := settledManager request event context.subscriptionManager }) :
    let finished := finishPacket user false (prvReturnBuffer user (some request.handle)
      ((prvInvokeCallback user event s').2.update settle))
    ∃ reading result, (∀ output ∈ reading, MQTTOutput.IsReading output) ∧
      finished.context = { s.context with
        txBufferList := before ++ after
        subscriptionManager := settledManager request event s.context.subscriptionManager } ∧
      Calls user s (reading ++ (user.reported event result ++
        [.returned request.handle, .returned rxBuffer.handle])) finished := by
  obtain ⟨hcontext, reading, hreading, hcalls⟩ := hreads
  obtain ⟨hreport, hreported⟩ := invoke_callback_spec user event hevent s'
  rw [places_rx_some hrx] at hdistinct
  obtain ⟨hlinked, -, hrest⟩ := List.nodup_append.mp hdistinct
  have hreturned : (prvReturnBuffer user (some request.handle)
      ((prvInvokeCallback user event s').2.update settle)).context = { s.context with
        txBufferList := before ++ after
        subscriptionManager := settledManager request event s.context.subscriptionManager } := by
    rw [return_buffer_context, update_context, hreported, hcontext, hsettle]
    exact unlink_middle hlist hlinked
  have hfresh : rxBuffer.handle ∉ (before ++ after).map MQTTBuffer.handle := by
    intro hmem
    refine hrest rxBuffer.handle ?_ rxBuffer.handle (List.mem_singleton_self _) rfl
    rw [hlist]
    exact List.map_subset _ ((List.sublist_cons_self request after).append_left before).subset hmem
  obtain ⟨hreturn, hfinished⟩ := finish_packet_spec user (s := prvReturnBuffer user _ _)
    (by rw [hreturned]; exact hrx) (by rw [hreturned]; exact hfresh)
  refine ⟨reading, (prvInvokeCallback user event s').1, hreading, hfinished.trans hreturned, ?_⟩
  exact hcalls.trans ((hreport.update settle).trans
    ((calls_return_buffer request.handle _).trans hreturn))

/-! ## Handling an acknowledgment -/

/-- The bytes of a packet in a buffer. -/
theorem MQTTBuffer.data_of_packet {bytes : List UInt8} (h : rxBuffer.packet = bytes) {i : Nat}
    (hi : i < bytes.length) : rxBuffer.data i = bytes[i] := by
  subst h
  simp [MQTTBuffer.packet, readBytes]

theorem MQTTBuffer.length_packet (buffer : MQTTBuffer) :
    buffer.packet.length = buffer.dataLength :=
  length_readBytes _ _ _

variable {ack : Acknowledgment} {identifier : UInt16}

/-- What a handler of an acknowledgment does once it has looked for the request. -/
def endAcknowledgment (user : MQTTInitParams W) (ack : Acknowledgment) (identifier : UInt16)
    (settle : MQTTBuffer → MQTTContext → MQTTContext) (s read : Session W) : Session W :=
  match s.context.txBufferList.find? (ack.acknowledges identifier) with
  | none => finishPacket user false (prvInvokeCallback user ack.unexpected s).2
  | some request =>
      finishPacket user false (prvReturnBuffer user (some request.handle)
        ((prvInvokeCallback user (ack.event identifier) read).2.update (settle request)))

/-- UNSUBACK and PUBACK look for their request after reading the whole packet. -/
theorem process_received_ack_ends (user : MQTTInitParams W) (ack : Acknowledgment)
    (find : UInt16 → MQTTContext → Option MQTTBuffer)
    (settle : MQTTBuffer → MQTTContext → MQTTContext) {code : UInt8}
    (hpacket : rxBuffer.packet = [code, 2] ++ [(identifier >>> 8).toUInt8, identifier.toUInt8])
    (hfield : s.context.rxMessageState.remainingLengthFieldBytes = 1)
    (hfind : ∀ context : MQTTContext, find identifier context =
      context.txBufferList.find? (ack.acknowledges identifier)) :
    ∃ read, Session.Reads user s read ∧
      processReceivedACK user [code, 2] find ack.unexpected
          (fun identifier => ack.event identifier) settle rxBuffer s =
        endAcknowledgment user ack identifier settle read read := by
  have hlength : rxBuffer.dataLength = 4 := by
    rw [← rxBuffer.length_packet, hpacket]
    rfl
  have hheader : rxBuffer.data.readBytes 0 [code, 2].length = [code, 2] := by
    have hwhole := hpacket
    rw [MQTTBuffer.packet, hlength, readBytes_add _ 0 2 2] at hwhole
    exact (List.append_inj hwhole (length_readBytes _ 0 2)).1
  have hidentifier : word16 (rxBuffer.data (adjustOffset 2 1)) (rxBuffer.data (adjustOffset 3 1)) =
      identifier := by
    have hmsb : rxBuffer.data 2 = (identifier >>> 8).toUInt8 :=
      MQTTBuffer.data_of_packet hpacket (i := 2) (by simp)
    have hlsb : rxBuffer.data 3 = identifier.toUInt8 :=
      MQTTBuffer.data_of_packet hpacket (i := 3) (by simp)
    rw [← word16_identifier identifier, ← hmsb, ← hlsb]
    rfl
  refine ⟨_, (Session.Reads.access user s 0 [code, 2].length).trans
    (Session.Reads.access user _ (adjustOffset 2 1) 2), ?_⟩
  unfold processReceivedACK
  simp only [emit_context, hfield, hidentifier, hfind]
  rw [if_pos (show rxBuffer.dataLength ≥ _ by rw [hlength]; rfl), if_pos hheader]
  rfl

/-- SUBACK looks for its request before it reads the return code. -/
theorem process_received_suback_ends (user : MQTTInitParams W) {returnCode : MQTTSubACKReturnCode}
    {further : List UInt8} {field : List UInt8}
    (hpacket : rxBuffer.packet = controlSUBACK :: (field ++
      Acknowledgment.body identifier (.subACK returnCode further)))
    (hfield : s.context.rxMessageState.remainingLengthFieldBytes = field.length) :
    ∃ looked read, Session.Reads user s looked ∧ Session.Reads user s read ∧
      prvProcessReceivedSUBACK user rxBuffer s =
        endAcknowledgment user (.subACK returnCode further) identifier
          (fun subscribe context =>
            if returnCode = .subACKFailure then
              { context with
                subscriptionManager := prvRemoveSubscriptionForSubscribeOrUnsubscribeBuffer
                  subscribe context.subscriptionManager }
            else context) looked read := by
  have hoffset : ∀ x, adjustOffset (x + 1) field.length = field.length + x := by
    intro x
    unfold adjustOffset
    omega
  have hlength : rxBuffer.dataLength > adjustOffset 4 field.length := by
    rw [← rxBuffer.length_packet, hpacket, hoffset 3]
    simp only [Acknowledgment.body, Acknowledgment.payload, List.length_cons, List.length_append]
    omega
  have hbyte : ∀ x, (hx : x < (Acknowledgment.body identifier
      (.subACK returnCode further)).length) →
      rxBuffer.data (adjustOffset (x + 1 + 1) field.length) =
        (Acknowledgment.body identifier (.subACK returnCode further))[x] := by
    intro x hx
    have hdata := MQTTBuffer.data_of_packet hpacket (i := field.length + x + 1) (by simp; omega)
    rw [hoffset (x + 1), ← Nat.add_assoc, hdata, List.getElem_cons_succ,
      List.getElem_append_right (by omega)]
    simp only [Nat.add_sub_cancel_left]
  have hidentifier : word16 (rxBuffer.data (adjustOffset 2 field.length))
      (rxBuffer.data (adjustOffset 3 field.length)) = identifier := by
    rw [hbyte 0 (by simp [Acknowledgment.body]), hbyte 1 (by simp [Acknowledgment.body])]
    exact word16_identifier identifier
  have hcode : subACKReturnCode (rxBuffer.data (adjustOffset 4 field.length)) =
      some returnCode := by
    rw [hbyte 2 (by simp [Acknowledgment.body, Acknowledgment.payload])]
    exact sub_ack_return_code_to_uint8 returnCode
  refine ⟨_, _, Session.Reads.access user s (adjustOffset 2 field.length) 2,
    (Session.Reads.access user s (adjustOffset 2 field.length) 2).trans
      (Session.Reads.access user _ (adjustOffset 4 field.length) 1), ?_⟩
  unfold prvProcessReceivedSUBACK
  simp only [hfield, hidentifier, hcode]
  rw [if_pos hlength]
  rfl

/-- The handler of an acknowledgment. -/
def Acknowledgment.handler (user : MQTTInitParams W) (rxBuffer : MQTTBuffer) (s : Session W) :
    Acknowledgment → Session W
  | .subACK _ _ => prvProcessReceivedSUBACK user rxBuffer s
  | .unSubACK => prvProcessReceivedUNSUBACK user rxBuffer s
  | .pubACK => prvProcessReceivedPUBACK user rxBuffer s

theorem dispatch_acknowledgment (user : MQTTInitParams W)
    (hcontrol : rxBuffer.controlByte = ack.controlByte) :
    prvProcessReceivedMQTTPacket user rxBuffer s =
      ack.handler user rxBuffer ((s.emit (.handled rxBuffer.packet)).emit (.access 0 1)) := by
  unfold prvProcessReceivedMQTTPacket MQTTBuffer.packetType
  simp only
  rw [hcontrol]
  cases ack with
  | subACK returnCode further =>
      rw [Acknowledgment.controlByte, if_neg (by decide), if_neg (by decide), if_neg (by decide),
        if_pos rfl]
      rfl
  | unSubACK =>
      rw [Acknowledgment.controlByte, if_neg (by decide), if_neg (by decide), if_neg (by decide),
        if_neg (by decide), if_pos rfl]
      rfl
  | pubACK =>
      rw [Acknowledgment.controlByte, if_neg (by decide), if_neg (by decide), if_pos rfl]
      rfl

/-- An acknowledgment in the Rx buffer gets as far as looking for its request. -/
theorem acknowledgment_ends (user : MQTTInitParams W)
    (hreceived : ack.ReceivedIn identifier rxBuffer s.context) :
    ∃ settle looked read, Session.Reads user s looked ∧ Session.Reads user s read ∧
      (∀ (request : MQTTBuffer) (context : MQTTContext), settle request context = { context with
        subscriptionManager := settledManager request (ack.event identifier)
          context.subscriptionManager }) ∧
      prvProcessReceivedMQTTPacket user rxBuffer s =
        endAcknowledgment user ack identifier settle looked read := by
  obtain ⟨field, hisField, hfield, hpacket⟩ := hreceived.packet_eq
  have hcontrol : rxBuffer.controlByte = ack.controlByte :=
    MQTTBuffer.data_of_packet hpacket (i := 0) (by simp)
  have hbegin := (Session.Reads.handled user s rxBuffer.packet).trans
    (Session.Reads.access user _ 0 1)
  rw [dispatch_acknowledgment user hcontrol]
  unfold Acknowledgment.handler
  generalize (s.emit (.handled rxBuffer.packet)).emit (.access 0 1) = begun at hbegin ⊢
  rw [← hbegin.1] at hfield
  cases ack with
  | subACK returnCode further =>
      obtain ⟨looked, read, hlooked, hread, hprocess⟩ :=
        process_received_suback_ends user hpacket hfield
      refine ⟨_, looked, read, hbegin.trans hlooked, hbegin.trans hread, ?_, hprocess⟩
      intro subscribe context
      cases returnCode with
      | successQos0 => rfl
      | successQos1 => rfl
      | subACKFailure => rfl
  | unSubACK =>
      rw [show field = [2] from hisField] at hpacket hfield
      obtain ⟨read, hread, hprocess⟩ := process_received_ack_ends user .unSubACK
        (prvPacketTypeFlagsIdentifierGetTxBuffer controlUNSUBSCRIBE flagsUNSUBSCRIBE)
        (fun unsubscribe context =>
          { context with
            subscriptionManager := prvRemoveSubscriptionForSubscribeOrUnsubscribeBuffer
              unsubscribe context.subscriptionManager })
        hpacket hfield fun _ => rfl
      exact ⟨_, read, read, hbegin.trans hread, hbegin.trans hread, fun _ _ => rfl, hprocess⟩
  | pubACK =>
      rw [show field = [2] from hisField] at hpacket hfield
      obtain ⟨read, hread, hprocess⟩ := process_received_ack_ends user .pubACK
        (prvPacketTypeIdentifierGetTxBuffer controlPUBLISH) (fun _ context => context)
        hpacket hfield fun _ => rfl
      exact ⟨_, read, read, hbegin.trans hread, hbegin.trans hread, fun _ _ => rfl, hprocess⟩

/-- Whatever the context holds, a well-formed SUBACK, UNSUBACK or PUBACK takes the first buffer that
it acknowledges off the Tx list, with one event that carries its identifier, and returns it and the
Rx buffer. The rest of the context is as before, but for the subscription that a rejected subscribe
or an unsubscribe ends. If there is no such buffer, there is one event of an unexpected
acknowledgment and the context is as before. -/
theorem acknowledgment_frame (user : MQTTInitParams W) {s : Session W}
    (hreceived : ack.ReceivedIn identifier rxBuffer s.context)
    (hdistinct : s.context.places.Nodup) :
    let s' := prvProcessReceivedMQTTPacket user rxBuffer s
    ((∃ buffer ∈ s.context.txBufferList, ack.acknowledges identifier buffer = true) →
      ∃ before request after reading result,
        s.context.txBufferList = before ++ request :: after ∧
        ack.acknowledges identifier request = true ∧
        (∀ buffer ∈ before, ack.acknowledges identifier buffer = false) ∧
        (∀ output ∈ reading, MQTTOutput.IsReading output) ∧
        s'.context = { s.context with
          txBufferList := before ++ after
          subscriptionManager := settledManager request (ack.event identifier)
            s.context.subscriptionManager } ∧
        Calls user s (reading ++ (user.reported (ack.event identifier) result ++
          [.returned request.handle, .returned rxBuffer.handle])) s') ∧
    ((∀ buffer ∈ s.context.txBufferList, ack.acknowledges identifier buffer = false) →
      ∃ reading result, (∀ output ∈ reading, MQTTOutput.IsReading output) ∧
        s'.context = s.context ∧
        Calls user s (reading ++ (user.reported ack.unexpected result ++
          [.returned rxBuffer.handle])) s') := by
  have hrx := hreceived.rxBuffer_eq
  obtain ⟨settle, looked, read, hlooked, hread, hsettle, hprocess⟩ :=
    acknowledgment_ends user hreceived
  simp only
  rw [hprocess]
  unfold endAcknowledgment
  rw [hlooked.1]
  refine ⟨fun hsome => ?_, fun hnone => ?_⟩
  · obtain ⟨request, hfind⟩ := Option.isSome_iff_exists.mp (List.find?_isSome.mpr hsome)
    obtain ⟨hrequest, before, after, hlist, hbefore⟩ := List.find?_eq_some_iff_append.mp hfind
    obtain ⟨reading, result, hreading, hcontext, hcalls⟩ := expected_finish hread hrx hdistinct
      (ack.event_not_publish identifier) hlist (hsettle request)
    rw [hfind]
    refine ⟨before, request, after, reading, result, hlist, hrequest, ?_, hreading, hcontext,
      hcalls⟩
    intro buffer hmem
    simpa using hbefore buffer hmem
  · rw [places_rx_some hrx] at hdistinct
    have hfresh : rxBuffer.handle ∉ s.context.txBufferList.map MQTTBuffer.handle :=
      fun hmem => (List.nodup_append.mp hdistinct).2.2 _ hmem _ (List.mem_singleton_self _) rfl
    rw [List.find?_eq_none.mpr fun buffer hmem => by simp [hnone buffer hmem]]
    exact unexpected_finish hlooked hrx hfresh ack.unexpected_not_publish

/-- A buffer with a packet. All of them have the identifier three. -/
def benchBuffer (handle : MQTTBufferHandle) (bytes : List UInt8) : MQTTBuffer where
  handle := handle
  bufferState := ⟨0, 100, 3⟩
  bufferLength := bytes.length + sizeofMQTTBufferMetadata
  dataLength := bytes.length
  data := ByteMemory.writeBytes (fun _ => 0) 0 bytes

/-- A SUBSCRIBE and a PUBLISH wait under one identifier when the PUBACK comes. -/
def benchAcknowledged : Session Bench where
  context := { blankContext with
    txBufferList := [benchBuffer 1 [controlSUBSCRIBE ||| flagsSUBSCRIBE],
      benchBuffer 2 [controlPUBLISH ||| 2]]
    rxBuffer := some (benchBuffer 3 [controlPUBACK, 2, 0, 3])
    rxMessageState := ⟨.message, .store, 1, 4⟩
    connectionState := .connected }
  world := ⟨4, 0, 0, false⟩
  outputs := []

/-- The PUBACK leaves the SUBSCRIBE on the list. -/
theorem acknowledgment_frame_puback :
    (prvProcessReceivedMQTTPacket benchUser (benchBuffer 3 [controlPUBACK, 2, 0, 3])
      benchAcknowledged).context.txBufferList =
      [benchBuffer 1 [controlSUBSCRIBE ||| flagsSUBSCRIBE]] := by
  have hreceived : Acknowledgment.pubACK.ReceivedIn 3 (benchBuffer 3 [controlPUBACK, 2, 0, 3])
      benchAcknowledged.context := ⟨rfl, [2], rfl, rfl, rfl⟩
  obtain ⟨before, request, after, reading, result, hlist, hrequest, hbefore, -, hcontext, -⟩ :=
    (acknowledgment_frame benchUser hreceived (by decide)).1
      ⟨benchBuffer 2 [controlPUBLISH ||| 2], by simp [benchAcknowledged], by decide⟩
  rw [hcontext]
  show before ++ after = _
  have hpublish : Acknowledgment.acknowledges 3 .pubACK
      (benchBuffer 1 [controlSUBSCRIBE ||| flagsSUBSCRIBE]) = false := by decide
  cases before with
  | nil =>
      have hfirst := (List.cons.inj hlist).1
      rw [← hfirst, hpublish] at hrequest
      cases hrequest
  | cons first rest =>
      obtain ⟨hfirst, hrest⟩ := List.cons.inj hlist
      cases rest with
      | nil =>
          obtain ⟨-, hafter⟩ := List.cons.inj hrest
          rw [← hfirst, ← hafter]
          rfl
      | cons second others =>
          have hlong := (List.cons.inj hrest).2
          simp at hlong

end TivaAws.Mqtt
