import TivaAws.Mqtt.PublishDelivery
import TivaAws.Mqtt.Reading

/-!
# The return code for a malformed packet

Whatever check finds a packet malformed, the library disconnects and reports it. Only the loop of
`MQTT_ParseReceivedData` itself, which checks the "Remaining Length", also returns
`eMQTTMalformedPacketReceived`. The handlers return nothing, so after a packet that one of them
rejects the loop ends with `eMQTTSuccess`, or with `eMQTTClientNotConnected` if bytes follow.
-/

namespace TivaAws.Mqtt

open Session ByteMemory

variable {W : Type} {user : MQTTInitParams W} {s s' : Session W} {data : List UInt8}

/-! ## What the handlers check -/

/-- The packet in the fixed header buffer passes the checks of its handler. -/
def MQTTContext.HeaderAccepted (context : MQTTContext) : Prop :=
  context.rxFixedHeaderBuffer 0 = controlPINGRESP ∧
    context.rxMessageReceivedLength ≥ pingRespPacket.length ∧
    context.rxFixedHeaderBuffer.readBytes 0 pingRespPacket.length = pingRespPacket

/-- An UNSUBACK or a PUBACK is complete and has its fixed header. -/
def MQTTBuffer.ACKAccepted (fixedHeader : List UInt8) (rxBuffer : MQTTBuffer) : Prop :=
  rxBuffer.dataLength ≥ fixedHeader.length + 2 ∧
    rxBuffer.data.readBytes 0 fixedHeader.length = fixedHeader

/-- A CONNACK that a CONNECT waits for is complete and has no reserved return code. -/
def MQTTBuffer.CONNACKAccepted (context : MQTTContext) (rxBuffer : MQTTBuffer) : Prop :=
  prvPacketTypeFlagsGetTxBuffer controlCONNECT flagsCONNECT context = none ∨
    rxBuffer.dataLength ≥ defaultCONNACKParameters.length ∧
      rxBuffer.data.readBytes 0 fixedHeaderMinSize =
        defaultCONNACKParameters.take fixedHeaderMinSize ∧
      connACKReturnCode (rxBuffer.data 3) ≠ none

/-- A SUBACK is complete, and has no reserved return code if a SUBSCRIBE waits for it. -/
def MQTTBuffer.SUBACKAccepted (context : MQTTContext) (rxBuffer : MQTTBuffer) : Prop :=
  let offset := fun x => adjustOffset x context.rxMessageState.remainingLengthFieldBytes
  rxBuffer.dataLength > offset 4 ∧
    (prvPacketTypeFlagsIdentifierGetTxBuffer controlSUBSCRIBE flagsSUBSCRIBE
        (word16 (rxBuffer.data (offset 2)) (rxBuffer.data (offset 3))) context = none ∨
      subACKReturnCode (rxBuffer.data (offset 4)) ≠ none)

/-- The packet in the Rx buffer passes the checks of its handler. -/
def MQTTBuffer.Accepted (context : MQTTContext) (rxBuffer : MQTTBuffer) : Prop :=
  if rxBuffer.packetType = controlPUBLISH then publishQoS rxBuffer.controlByte ≠ none
  else if rxBuffer.controlByte = controlCONNACK then rxBuffer.CONNACKAccepted context
  else if rxBuffer.controlByte = controlPUBACK then rxBuffer.ACKAccepted [controlPUBACK, 2]
  else if rxBuffer.controlByte = controlSUBACK then rxBuffer.SUBACKAccepted context
  else if rxBuffer.controlByte = controlUNSUBACK then rxBuffer.ACKAccepted [controlUNSUBACK, 2]
  else False

/-- The unprocessed bytes complete a packet that its handler rejects. -/
def HandlerRejects (data : List UInt8) (context : MQTTContext) : Prop :=
  match context.rxMessageState.rxNextByte with
  | .packetType => False
  | .packetLength =>
      let received := context.copyHeaderByte data
      let decoded := received.decodeLength
      received.rxFixedHeaderBuffer (received.rxMessageReceivedLength - 1) &&& 0x80 = 0 ∧
        decoded.rxMessageState.totalMessageLength = decoded.rxMessageReceivedLength ∧
        ¬ decoded.HeaderAccepted
  | .message =>
      match context.rxMessageState.rxMessageAction with
      | .drop => False
      | .store =>
          ∃ rxBuffer, context.rxBuffer = some rxBuffer ∧
            let expectedBytes :=
              sub32 context.rxMessageState.totalMessageLength rxBuffer.dataLength
            let received := rxBuffer.copyBytes (data.take expectedBytes)
            expectedBytes ≤ data.length ∧ ¬ received.Accepted (context.setRxBuffer received)

/-! ## Reporting a malformed packet -/

/-- The output reports that the client was disconnected because of a malformed packet. -/
def malformedReport : MQTTOutput := .event (.clientDisconnected .malformedPacket)

/-- No malformed packet is reported. -/
def Session.Quiet (s s' : Session W) : Prop :=
  Session.Emits (fun output => output ≠ malformedReport) s s'

theorem Session.Quiet.reported_iff (h : Session.Quiet s s') :
    malformedReport ∈ s'.outputs ↔ malformedReport ∈ s.outputs := by
  obtain ⟨outputs, heq, hquiet⟩ := h
  rw [heq, List.mem_append]
  exact or_iff_left fun hmem => hquiet _ hmem rfl

/-- The client has been disconnected because of a malformed packet. -/
structure Session.Malformed (s : Session W) : Prop where
  closed : s.context.connectionState = .notConnected
  reported : malformedReport ∈ s.outputs

theorem malformed_reset_and_report (user : MQTTInitParams W) (s : Session W) :
    (resetAndReport user .malformedPacket s).Malformed := by
  obtain ⟨result, hcalls, hcontext⟩ := reset_and_report_spec user .malformedPacket s
  refine ⟨by rw [hcontext]; rfl, ?_⟩
  rw [hcalls.outputs]
  exact List.mem_append_right _ (List.mem_append_right _ List.mem_cons_self)

theorem malformed_finish (user : MQTTInitParams W) (s : Session W) :
    (finishPacket user true s).Malformed := by
  rw [finish_packet_malformed]
  exact malformed_reset_and_report user s

theorem quiet_access (offset count : Nat) (s : Session W) :
    Session.Quiet s (s.emit (.access offset count)) :=
  emits_emit (fun h => (by cases h)) s

theorem quiet_return_buffer (user : MQTTInitParams W) (handle : Option MQTTBufferHandle)
    (s : Session W) : Session.Quiet s (prvReturnBuffer user handle s) := by
  cases handle with
  | none => exact .refl s
  | some handle => exact emits_emit (fun h => (by cases h)) _

theorem quiet_finish (user : MQTTInitParams W) (s : Session W) :
    Session.Quiet s (finishPacket user false s) := by
  unfold finishPacket
  rw [if_neg Bool.false_ne_true]
  exact quiet_return_buffer user _ s

theorem ne_report_of_clock {t : UInt64} : ∀ output ∈ user.clock t, output ≠ malformedReport := by
  intro output hmem heq
  rw [heq] at hmem
  unfold MQTTInitParams.clock malformedReport at hmem
  split_ifs at hmem
  · cases List.mem_singleton.mp hmem
  · exact absurd hmem List.not_mem_nil

theorem ne_report_of_reported {event : MQTTEvent} {result : Bool}
    (h : event ≠ .clientDisconnected .malformedPacket) :
    ∀ output ∈ user.reported event result, output ≠ malformedReport := by
  intro output hmem heq
  rw [heq] at hmem
  unfold MQTTInitParams.reported malformedReport at hmem
  rcases List.mem_cons.mp hmem with hmem | hmem
  · exact h (MQTTOutput.event.inj hmem).symm
  · split_ifs at hmem
    · cases List.mem_singleton.mp hmem
    · exact absurd hmem List.not_mem_nil

theorem ne_report_of_returns {context : MQTTContext} :
    ∀ output ∈ context.returns, output ≠ malformedReport := by
  intro output hmem heq
  rw [heq] at hmem
  rcases List.mem_append.mp hmem with hmem | hmem
  · obtain ⟨buffer, -, hbuffer⟩ := List.mem_map.mp hmem
    cases hbuffer
  · obtain ⟨handle, -, hhandle⟩ := List.mem_map.mp hmem
    cases hhandle

theorem quiet_tick_count (user : MQTTInitParams W) (s : Session W) :
    Session.Quiet s (prvGetCurrentTickCount user s).2 :=
  (get_current_tick_count_spec user s).1.emits ne_report_of_clock

theorem quiet_send_data (user : MQTTInitParams W) (packet : List UInt8) (s : Session W) :
    Session.Quiet s (prvSendData user packet s).2 := by
  obtain ⟨count, t, hcalls, -⟩ := send_data_spec user packet s
  refine hcalls.emits ?_
  intro output hmem
  unfold MQTTInitParams.transmitted at hmem
  rcases List.mem_cons.mp hmem with rfl | hmem
  · exact fun h => (by cases h)
  · split_ifs at hmem
    · exact ne_report_of_clock output hmem
    · exact absurd hmem List.not_mem_nil

/-- Reporting another event. -/
theorem quiet_invoke_callback (user : MQTTInitParams W) {event : MQTTEvent}
    (hevent : event ≠ .clientDisconnected .malformedPacket)
    (hpublish : ∀ publish, event ≠ .publish publish) (s : Session W) :
    Session.Quiet s (prvInvokeCallback user event s).2 :=
  (invoke_callback_spec user event hpublish s).1.emits (ne_report_of_reported hevent)

theorem quiet_invoke_publish (user : MQTTInitParams W) (publish : MQTTPublishData)
    (s : Session W) : Session.Quiet s (prvInvokeCallback user (.publish publish) s).2 := by
  obtain ⟨answers, takes, -, hcalls, -⟩ := invoke_callback_delivers user publish s
  refine hcalls.emits ?_
  intro output hmem heq
  rw [heq] at hmem
  rcases List.mem_cons.mp hmem with hmem | hmem
  · cases hmem
  · rcases List.mem_append.mp hmem with hmem | hmem
    · obtain ⟨answer, -, hanswer⟩ := List.mem_map.mp hmem
      cases hanswer
    · unfold genericCall at hmem
      split_ifs at hmem
      · cases List.mem_singleton.mp hmem
      · exact absurd hmem List.not_mem_nil

/-! ## The handlers -/

/-- What passes the checks is not reported, and anything else is a malformed packet. -/
structure Session.Judged (accepted : Prop) (s s' : Session W) : Prop where
  quiet : accepted → Session.Quiet s s'
  malformed : ¬ accepted → s'.Malformed

theorem Session.Judged.of_accepted {accepted : Prop} (h : accepted) (hquiet : Session.Quiet s s') :
    Session.Judged accepted s s' :=
  ⟨fun _ => hquiet, fun hnot => absurd h hnot⟩

theorem Session.Judged.of_rejected {accepted : Prop} (h : ¬ accepted) (hmalformed : s'.Malformed) :
    Session.Judged accepted s s' :=
  ⟨fun haccepted => absurd haccepted h, fun _ => hmalformed⟩

theorem Session.Judged.after {accepted : Prop} {s'' : Session W}
    (h : Session.Judged accepted s' s'')
    (hquiet : Session.Quiet s s') : Session.Judged accepted s s'' :=
  ⟨fun haccepted => hquiet.trans (h.quiet haccepted), h.malformed⟩

variable {rxBuffer : MQTTBuffer}

theorem judged_pingresp (user : MQTTInitParams W) (s : Session W)
    (hcontrol : s.context.rxFixedHeaderBuffer 0 = controlPINGRESP) :
    Session.Judged s.context.HeaderAccepted s (prvProcessReceivedPINGRESP user s) := by
  unfold prvProcessReceivedPINGRESP
  simp only
  split_ifs with hlength hheader hwaiting
  · exact .of_accepted ⟨hcontrol, hlength, hheader⟩
      ((quiet_access _ _ s).trans ((quiet_tick_count user _).update _))
  · exact .of_accepted ⟨hcontrol, hlength, hheader⟩ (quiet_access _ _ s)
  · exact .of_rejected (fun h => hheader h.2.2) (malformed_reset_and_report user _)
  · exact .of_rejected (fun h => hlength h.2.1) (malformed_reset_and_report user _)

theorem judged_fixed_header_only (user : MQTTInitParams W) (s : Session W) :
    Session.Judged s.context.HeaderAccepted s
      (prvProcessReceivedFixedHeaderOnlyMQTTPacket user s) := by
  unfold prvProcessReceivedFixedHeaderOnlyMQTTPacket
  have hbegin : Session.Quiet s ((s.emit (.handled (s.context.rxFixedHeaderBuffer.readBytes 0
      s.context.rxMessageReceivedLength))).emit (.access 0 1)) :=
    Emits.trans (emits_emit (fun h => (by cases h)) s) (quiet_access 0 1 _)
  simp only
  split_ifs with hcontrol
  · exact (judged_pingresp user _ hcontrol).after hbegin
  · exact .of_rejected (fun h => hcontrol h.1) (malformed_reset_and_report user _)

theorem judged_publish (user : MQTTInitParams W) (rxBuffer : MQTTBuffer) (s : Session W) :
    Session.Judged (publishQoS rxBuffer.controlByte ≠ none) s
      (prvProcessReceivedPublish user rxBuffer s) := by
  unfold prvProcessReceivedPublish
  cases publishQoS rxBuffer.controlByte with
  | none => exact .of_rejected (fun h => h rfl) (malformed_reset_and_report user s)
  | some qos =>
      refine .of_accepted (fun h => (by cases h)) ?_
      simp only
      generalize receivedPublishData qos rxBuffer s.context.rxMessageState = publish
      have hack : Session.Quiet (s.emit (.access (publish.topicOffset - 2) 2))
          (if qos = .qos1 then
            (prvSendData user (pubACKPacket (rxBuffer.data (publish.topicOffset +
              publish.topicLength)) (rxBuffer.data (publish.topicOffset + publish.topicLength + 1)))
              ((s.emit (.access (publish.topicOffset - 2) 2)).emit
                (.access (publish.topicOffset + publish.topicLength) 2))).2
          else s.emit (.access (publish.topicOffset - 2) 2)) := by
        split_ifs
        · exact (quiet_access _ _ _).trans (quiet_send_data user _ _)
        · exact .refl _
      refine ((quiet_access _ _ s).trans hack).trans ?_
      generalize (if qos = .qos1 then _ else _ : Session W) = acknowledged
      have hhanded := (quiet_access publish.topicOffset publish.topicLength acknowledged).trans
        (quiet_access publish.dataOffset publish.dataLength _)
      refine hhanded.trans ((quiet_invoke_publish user publish _).trans ?_)
      split_ifs
      · exact emits_emit (fun h => (by cases h)) _
      · exact quiet_return_buffer user _ _

theorem quiet_accept_connection (user : MQTTInitParams W) (connect : MQTTBuffer) (s : Session W) :
    Session.Quiet s (acceptConnection user connect s) := by
  have hevent := quiet_invoke_callback user (show MQTTEvent.connACK .connectionAccepted
    connect.bufferState.packetIdentifier ≠ .clientDisconnected .malformedPacket by simp) (by simp) s
  have hreturned := (hevent.trans (quiet_return_buffer user (some connect.handle) _)).update
    fun context => { context with connectionState := .connected }
  unfold acceptConnection
  exact hreturned.trans ((quiet_tick_count user _).trans (quiet_finish user _))

theorem quiet_refuse_connection (user : MQTTInitParams W) (connect : MQTTBuffer)
    (returnCode : MQTTConnACKReturnCode) (s : Session W) :
    Session.Quiet s (refuseConnection user connect returnCode s) := by
  have hevent := quiet_invoke_callback user (show MQTTEvent.connACK returnCode
    connect.bufferState.packetIdentifier ≠ .clientDisconnected .malformedPacket by simp) (by simp) s
  unfold refuseConnection
  simp only
  refine hevent.trans ((quiet_return_buffer user (some connect.handle) _).trans
    (Emits.trans ?_ (quiet_finish user _)))
  obtain ⟨result, hcalls, -⟩ := reset_and_report_spec user .brokerRefusedConnection
    (prvReturnBuffer user (some connect.handle) (prvInvokeCallback user
      (.connACK returnCode connect.bufferState.packetIdentifier) s).2)
  refine hcalls.emits ?_
  intro output hmem
  rcases List.mem_append.mp hmem with hmem | hmem
  · exact ne_report_of_returns output hmem
  · exact ne_report_of_reported (by simp) output hmem

/-- A CONNACK that is found malformed also returns the CONNECT buffer. -/
theorem malformed_connack (user : MQTTInitParams W) (connect : MQTTBuffer) (s : Session W) :
    (finishPacket user true (prvReturnBuffer user (some connect.handle) s)).Malformed :=
  malformed_finish user _

theorem judged_connack (user : MQTTInitParams W) (rxBuffer : MQTTBuffer) (s : Session W) :
    Session.Judged (rxBuffer.CONNACKAccepted s.context) s
      (prvProcessReceivedCONNACK user rxBuffer s) := by
  unfold prvProcessReceivedCONNACK
  cases hfind : prvPacketTypeFlagsGetTxBuffer controlCONNECT flagsCONNECT s.context with
  | none =>
      refine .of_accepted (Or.inl hfind) ?_
      exact (quiet_invoke_callback user (by simp) (by simp) s).trans (quiet_finish user _)
  | some connect =>
      have hchecks : rxBuffer.CONNACKAccepted s.context →
          rxBuffer.dataLength ≥ defaultCONNACKParameters.length ∧
            rxBuffer.data.readBytes 0 fixedHeaderMinSize =
              defaultCONNACKParameters.take fixedHeaderMinSize ∧
            connACKReturnCode (rxBuffer.data 3) ≠ none :=
        fun h => h.resolve_left (by rw [hfind]; exact Option.some_ne_none connect)
      simp only
      split_ifs with hlength hheader
      · cases hcode : connACKReturnCode (rxBuffer.data 3) with
        | none =>
            exact .of_rejected (fun h => (hchecks h).2.2 hcode) (malformed_connack user connect _)
        | some returnCode =>
            refine .of_accepted (Or.inr ⟨hlength, hheader, by rw [hcode]; simp⟩) ?_
            simp only
            refine ((quiet_access 0 fixedHeaderMinSize s).trans (quiet_access 3 1 _)).trans ?_
            split_ifs
            · exact quiet_accept_connection user connect _
            · exact quiet_refuse_connection user connect returnCode _
      · exact .of_rejected (fun h => hheader (hchecks h).2.1) (malformed_connack user connect _)
      · exact .of_rejected (fun h => hlength (hchecks h).1) (malformed_connack user connect _)

/-- Reporting the end of an operation is quiet, whatever is settled. -/
theorem quiet_settle (user : MQTTInitParams W) {event : MQTTEvent}
    (hevent : event ≠ .clientDisconnected .malformedPacket)
    (hpublish : ∀ publish, event ≠ .publish publish) (settle : MQTTContext → MQTTContext)
    (handle : MQTTBufferHandle) (s : Session W) :
    Session.Quiet s (finishPacket user false (prvReturnBuffer user (some handle)
      ((prvInvokeCallback user event s).2.update settle))) :=
  ((quiet_invoke_callback user hevent hpublish s).update settle).trans
    ((quiet_return_buffer user (some handle) _).trans (quiet_finish user _))

theorem judged_suback (user : MQTTInitParams W) (rxBuffer : MQTTBuffer) (s : Session W) :
    Session.Judged (rxBuffer.SUBACKAccepted s.context) s
      (prvProcessReceivedSUBACK user rxBuffer s) := by
  unfold prvProcessReceivedSUBACK MQTTBuffer.SUBACKAccepted
  simp only
  generalize s.context.rxMessageState.remainingLengthFieldBytes = fieldBytes
  split_ifs with hlength
  · cases hfind : prvPacketTypeFlagsIdentifierGetTxBuffer controlSUBSCRIBE flagsSUBSCRIBE
        (word16 (rxBuffer.data (adjustOffset 2 fieldBytes))
          (rxBuffer.data (adjustOffset 3 fieldBytes))) s.context with
    | none =>
        simp only [emit_context, hfind]
        refine .of_accepted ⟨hlength, Or.inl trivial⟩
          ((quiet_access (adjustOffset 2 fieldBytes) 2 s).trans ?_)
        exact (quiet_invoke_callback user (by simp) (by simp) _).trans (quiet_finish user _)
    | some subscribe =>
        simp only [emit_context, hfind]
        cases hcode : subACKReturnCode (rxBuffer.data (adjustOffset 4 fieldBytes)) with
        | none =>
            refine .of_rejected ?_ (malformed_finish user _)
            simp
        | some returnCode =>
            refine .of_accepted ⟨hlength, Or.inr (Option.some_ne_none returnCode)⟩ ?_
            exact (quiet_access _ _ s).trans ((quiet_access _ _ _).trans
              (quiet_settle user (by simp) (by simp) _ subscribe.handle _))
  · exact .of_rejected (fun h => hlength h.1) (malformed_finish user s)

theorem judged_ack (user : MQTTInitParams W) {fixedHeader : List UInt8}
    (find : UInt16 → MQTTContext → Option MQTTBuffer) {unexpected : MQTTEvent}
    {acknowledged : UInt16 → MQTTEvent} (settle : MQTTBuffer → MQTTContext → MQTTContext)
    (hunexpected : unexpected ≠ .clientDisconnected .malformedPacket ∧
      ∀ publish, unexpected ≠ .publish publish)
    (hacknowledged : ∀ identifier, acknowledged identifier ≠ .clientDisconnected .malformedPacket ∧
      ∀ publish, acknowledged identifier ≠ .publish publish)
    (rxBuffer : MQTTBuffer) (s : Session W) :
    Session.Judged (rxBuffer.ACKAccepted fixedHeader) s
      (processReceivedACK user fixedHeader find unexpected acknowledged settle rxBuffer s) := by
  unfold processReceivedACK
  simp only
  split_ifs with hlength hheader
  · refine .of_accepted ⟨hlength, hheader⟩ (((quiet_access 0 fixedHeader.length s).trans
      (quiet_access (adjustOffset 2 s.context.rxMessageState.remainingLengthFieldBytes) 2 _)).trans
      ?_)
    split
    · exact (quiet_invoke_callback user hunexpected.1 hunexpected.2 _).trans (quiet_finish user _)
    · exact quiet_settle user (hacknowledged _).1 (hacknowledged _).2 _ _ _
  · exact .of_rejected (fun h => hheader h.2) (malformed_finish user _)
  · exact .of_rejected (fun h => hlength h.1) (malformed_finish user s)

/-- The checks of the handlers decide which packets are reported as malformed. -/
theorem judged_packet (user : MQTTInitParams W) (rxBuffer : MQTTBuffer) (s : Session W) :
    Session.Judged (rxBuffer.Accepted s.context) s
      (prvProcessReceivedMQTTPacket user rxBuffer s) := by
  have hbegin : Session.Quiet s ((s.emit (.handled rxBuffer.packet)).emit (.access 0 1)) :=
    Emits.trans (emits_emit (fun h => (by cases h)) s) (quiet_access 0 1 _)
  unfold prvProcessReceivedMQTTPacket MQTTBuffer.Accepted
  simp only
  split_ifs with hpublish hconnack hpuback hsuback hunsuback
  · exact (judged_publish user rxBuffer _).after hbegin
  · exact (judged_connack user rxBuffer _).after hbegin
  · exact (judged_ack user _ _ ⟨by simp, by simp⟩ (fun _ => ⟨by simp, by simp⟩) rxBuffer _).after
      hbegin
  · exact (judged_suback user rxBuffer _).after hbegin
  · exact (judged_ack user _ _ ⟨by simp, by simp⟩ (fun _ => ⟨by simp, by simp⟩) rxBuffer _).after
      hbegin
  · exact .of_rejected id (malformed_reset_and_report user _)

/-! ## One iteration -/

/-- The end of an iteration in which a packet is judged. -/
structure ParseIteration.Judges (rejects : Prop) (s : Session W) (iteration : ParseIteration W) :
    Prop where
  rejected : rejects → iteration.exit = none ∧ iteration.session.Malformed
  passed : ¬ rejects → iteration.exit = none ∧ Session.Quiet s iteration.session ∨
    iteration.exit = some .malformedPacketReceived ∧ malformedReport ∈ iteration.session.outputs

theorem Session.Malformed.update_reset (h : s.Malformed) :
    (s.update prvResetRxMessageState).Malformed :=
  ⟨h.closed, h.reported⟩

theorem quiet_get_free_buffer (user : MQTTInitParams W) (length : Nat) (s : Session W) :
    Session.Quiet s (prvGetFreeBuffer user length s).2 := by
  unfold prvGetFreeBuffer
  cases hanswer : (user.getBuffer ((length + sizeofMQTTBufferMetadata) % 2 ^ 32) s.world).1 with
  | none =>
      simp only [hanswer]
      exact ⟨[_], rfl, by simp [malformedReport]⟩
  | some buffer =>
      simp only [hanswer]
      exact ⟨[_], rfl, by simp [malformedReport]⟩

theorem quiet_start_message (user : MQTTInitParams W) (s : Session W) :
    Session.Quiet s (startMessage user s).1 := by
  have hanswer := quiet_get_free_buffer user s.context.rxMessageState.totalMessageLength s
  unfold startMessage
  simp only
  split
  · exact hanswer.update _
  · exact hanswer.update _

/-- What is judged in the middle of an iteration that does not leave the loop. -/
theorem Session.Judged.judges {accepted rejects : Prop} {iteration : ParseIteration W}
    (h : Session.Judged accepted s s') (hrejects : rejects ↔ ¬ accepted)
    (hexit : iteration.exit = none)
    (hsession : iteration.session = s'.update prvResetRxMessageState) :
    iteration.Judges rejects s := by
  refine ⟨fun hreject => ⟨hexit, ?_⟩, fun haccept => Or.inl ⟨hexit, ?_⟩⟩
  · rw [hsession]
    exact (h.malformed (hrejects.mp hreject)).update_reset
  · rw [hsession]
    exact (h.quiet (not_not.mp (mt hrejects.mpr haccept))).update _

/-- An iteration that completes no packet. -/
theorem judges_quiet {rejects : Prop} {iteration : ParseIteration W} (hrejects : ¬ rejects)
    (hexit : iteration.exit = none) (hquiet : Session.Quiet s iteration.session) :
    iteration.Judges rejects s :=
  ⟨fun hreject => absurd hreject hrejects, fun _ => Or.inl ⟨hexit, hquiet⟩⟩

theorem receive_packet_type_judges (data : List UInt8) (s : Session W)
    (hnext : s.context.rxMessageState.rxNextByte = .packetType) :
    (receivePacketType data s).Judges (HandlerRejects data s.context) s := by
  refine judges_quiet ?_ rfl ((Emits.refl s).update _)
  simp only [HandlerRejects, hnext, not_false_eq_true]

theorem receive_packet_length_judges (user : MQTTInitParams W) (data : List UInt8)
    (s : Session W) (hnext : s.context.rxMessageState.rxNextByte = .packetLength) :
    (receivePacketLength user data s).Judges (HandlerRejects data s.context) s := by
  unfold receivePacketLength completeFixedHeader
  simp only
  split_ifs with hcontinues hlong hempty
  · -- The "Remaining Length" is too long, which the loop itself returns.
    refine ⟨?_, fun _ => Or.inr ⟨rfl, (malformed_reset_and_report user _).reported⟩⟩
    intro hrejects
    simp only [HandlerRejects, hnext] at hrejects
    exact absurd hrejects.1 hcontinues
  · refine judges_quiet ?_ rfl ((Emits.refl s).update _)
    intro hrejects
    simp only [HandlerRejects, hnext] at hrejects
    exact absurd hrejects.1 hcontinues
  · have hjudged := judged_fixed_header_only user
      ((s.update (MQTTContext.copyHeaderByte data)).update MQTTContext.decodeLength)
    refine (hjudged.after (s := s) (((Emits.refl s).update _).update _)).judges ?_ rfl rfl
    simp only [HandlerRejects, hnext]
    exact ⟨fun h => h.2.2, fun h => ⟨not_not.mp hcontinues, hempty, h⟩⟩
  · refine judges_quiet ?_ rfl ((((Emits.refl s).update _).update _).trans
      (quiet_start_message user _))
    intro hrejects
    simp only [HandlerRejects, hnext] at hrejects
    exact hempty hrejects.2.1

theorem store_message_judges (user : MQTTInitParams W) (data : List UInt8) (s : Session W)
    (hnext : s.context.rxMessageState.rxNextByte = .message)
    (haction : s.context.rxMessageState.rxMessageAction = .store)
    (hrx : s.context.rxBuffer = some rxBuffer) :
    (storeMessage user data rxBuffer s).Judges (HandlerRejects data s.context) s := by
  have hrejects : HandlerRejects data s.context ↔
      sub32 s.context.rxMessageState.totalMessageLength rxBuffer.dataLength ≤ data.length ∧
        ¬ (rxBuffer.copyBytes (data.take (sub32 s.context.rxMessageState.totalMessageLength
          rxBuffer.dataLength))).Accepted (s.context.setRxBuffer (rxBuffer.copyBytes (data.take
            (sub32 s.context.rxMessageState.totalMessageLength rxBuffer.dataLength)))) := by
    simp only [HandlerRejects, hnext, haction, hrx, Option.some.injEq, exists_eq_left']
  unfold storeMessage
  simp only
  split_ifs with hmore
  · refine judges_quiet ?_ rfl ((Emits.refl s).update _)
    exact fun h => absurd (hrejects.mp h).1 (Nat.not_le.mpr hmore)
  · refine ((judged_packet user _ _).after ((Emits.refl s).update _)).judges ?_ rfl rfl
    exact hrejects.trans (and_iff_right (Nat.not_lt.mp hmore))

theorem drop_message_judges (user : MQTTInitParams W) (data : List UInt8) (s : Session W)
    (hnext : s.context.rxMessageState.rxNextByte = .message)
    (haction : s.context.rxMessageState.rxMessageAction = .drop) :
    (dropMessage user data s).Judges (HandlerRejects data s.context) s := by
  have hrejects : ¬ HandlerRejects data s.context := by
    simp only [HandlerRejects, hnext, haction, not_false_eq_true]
  unfold dropMessage
  simp only
  split_ifs
  · exact judges_quiet hrejects rfl ((Emits.refl s).update _)
  · have hcounted : Session.Quiet s (s.update (MQTTContext.countBytes (sub32
        s.context.rxMessageState.totalMessageLength s.context.rxMessageReceivedLength))) :=
      (Emits.refl s).update _
    exact judges_quiet hrejects rfl (hcounted.trans
      ((quiet_invoke_callback user (by simp) (by simp) _).update _))

/-- An iteration on an open connection finds a malformed packet in the handler, which it does not
return, or in the "Remaining Length", which it does. -/
theorem parse_iteration_judges {iteration : ParseIteration W}
    (hstate : s.context.connectionState ≠ .notConnected)
    (h : parseIteration user data s = some iteration) :
    iteration.Judges (HandlerRejects data s.context) s := by
  unfold parseIteration at h
  rw [if_neg hstate] at h
  cases hnext : s.context.rxMessageState.rxNextByte with
  | packetType =>
      rw [hnext, Option.some.injEq] at h
      subst h
      exact receive_packet_type_judges data s hnext
  | packetLength =>
      rw [hnext, Option.some.injEq] at h
      subst h
      exact receive_packet_length_judges user data s hnext
  | message =>
      rw [hnext] at h
      cases haction : s.context.rxMessageState.rxMessageAction with
      | store =>
          rw [haction] at h
          cases hrx : s.context.rxBuffer with
          | none => simp [hrx] at h
          | some rxBuffer =>
              simp only [hrx, Option.map_some, Option.some.injEq] at h
              subst h
              exact store_message_judges user data s hnext haction hrx
      | drop =>
          simp only [haction, Option.some.injEq] at h
          subst h
          exact drop_message_judges user data s hnext haction

/-! ## The loop -/

/-- The loop comes to an iteration on an open connection: with the unprocessed bytes and the
session at its beginning. -/
inductive Iterates (user : MQTTInitParams W) :
    List UInt8 → Session W → List UInt8 → Session W → Prop where
  | here {first : List UInt8} {start : Session W} :
      first ≠ [] → start.context.connectionState ≠ .notConnected →
      Iterates user first start first start
  | next {first rest : List UInt8} {start last : Session W} {iteration : ParseIteration W} :
      first ≠ [] → parseIteration user first start = some iteration → iteration.exit = none →
      Iterates user (first.drop iteration.consumed) iteration.session rest last →
      Iterates user first start rest last

/-- Every iteration accepts the packet that it completes, except for the "Remaining Length". -/
def HandlersAccept (user : MQTTInitParams W) (data : List UInt8) (s : Session W) : Prop :=
  ∀ data' s', Iterates user data s data' s' → ¬ HandlerRejects data' s'.context

/-- The return code tells whether a malformed packet has been reported. -/
def ReturnCodeTells (returnCode : MQTTReturnCode) (s : Session W) : Prop :=
  returnCode = .malformedPacketReceived ↔ malformedReport ∈ s.outputs

theorem handlers_accept_next {iteration : ParseIteration W}
    (hdata : data ≠ []) (hiteration : parseIteration user data s = some iteration)
    (hexit : iteration.exit = none) (haccepts : ¬ HandlerRejects data s.context) :
    HandlersAccept user (data.drop iteration.consumed) iteration.session ↔
      HandlersAccept user data s := by
  constructor
  · intro h data' s' hcomes
    cases hcomes with
    | here => exact haccepts
    | next _ hiteration' _ hrest =>
        rw [hiteration] at hiteration'
        cases hiteration'
        exact h data' s' hrest
  · exact fun h data' s' hcomes => h data' s' (.next hdata hiteration hexit hcomes)

theorem handlers_accept_nothing (s : Session W) : HandlersAccept user [] s := by
  intro data' s' hcomes
  cases hcomes with
  | here hdata => exact absurd rfl hdata
  | next hdata => exact absurd rfl hdata

theorem handlers_accept_closed (hstate : s.context.connectionState = .notConnected) :
    HandlersAccept user data s := by
  intro data' s' hcomes
  cases hcomes with
  | here _ hopen => exact absurd hstate hopen
  | next _ hiteration hexit =>
      simp only [parseIteration, if_pos hstate, Option.some.injEq] at hiteration
      rw [← hiteration] at hexit
      cases hexit

/-- An iteration that leaves the loop is the last. -/
theorem handlers_accept_exit {iteration : ParseIteration W} {returnCode : MQTTReturnCode}
    (hiteration : parseIteration user data s = some iteration)
    (hexit : iteration.exit = some returnCode) (haccepts : ¬ HandlerRejects data s.context) :
    HandlersAccept user data s := by
  intro data' s' hcomes
  cases hcomes with
  | here => exact haccepts
  | next _ hiteration' hexit' =>
      rw [hiteration] at hiteration'
      cases hiteration'
      rw [hexit] at hexit'
      cases hexit'

theorem parse_loop_nothing (rounds : Nat) (s : Session W) :
    parseLoop user rounds [] s = some (.success, s) := by
  cases rounds with
  | zero => rfl
  | succ rounds => rfl

/-- Without a connection the loop does nothing. -/
theorem parse_loop_closed {rounds : Nat} {returnCode : MQTTReturnCode}
    (hstate : s.context.connectionState = .notConnected)
    (h : parseLoop user rounds data s = some (returnCode, s')) :
    returnCode ≠ .malformedPacketReceived ∧ s' = s := by
  by_cases hdata : data = []
  · rw [hdata, parse_loop_nothing] at h
    cases h
    exact ⟨by simp, rfl⟩
  · cases rounds with
    | zero => simp [parseLoop, hdata] at h
    | succ rounds =>
        simp only [parseLoop, if_neg hdata, parseIteration, if_pos hstate, Option.bind_eq_bind,
          Option.bind_some] at h
        cases h
        exact ⟨by simp, rfl⟩

/-- The return code tells about malformed packets exactly if no handler finds one. -/
theorem parse_loop_tells_iff {rounds : Nat} {returnCode : MQTTReturnCode}
    (hquiet : malformedReport ∉ s.outputs)
    (h : parseLoop user rounds data s = some (returnCode, s')) :
    ReturnCodeTells returnCode s' ↔ HandlersAccept user data s := by
  induction rounds generalizing data s with
  | zero =>
      by_cases hdata : data = []
      · rw [hdata, parse_loop_nothing] at h
        cases h
        rw [hdata]
        exact iff_of_true (iff_of_false (by simp) hquiet) (handlers_accept_nothing _)
      · simp [parseLoop, hdata] at h
  | succ rounds ih =>
      by_cases hdata : data = []
      · rw [hdata, parse_loop_nothing] at h
        cases h
        rw [hdata]
        exact iff_of_true (iff_of_false (by simp) hquiet) (handlers_accept_nothing _)
      by_cases hstate : s.context.connectionState = .notConnected
      · obtain ⟨hcode, rfl⟩ := parse_loop_closed hstate h
        exact iff_of_true (iff_of_false hcode hquiet) (handlers_accept_closed hstate)
      simp only [parseLoop, if_neg hdata, Option.bind_eq_bind, Option.bind_eq_some_iff] at h
      obtain ⟨iteration, hiteration, h⟩ := h
      have hjudges := parse_iteration_judges hstate hiteration
      by_cases hrejects : HandlerRejects data s.context
      · -- The handler has closed the connection, and the rest of the loop does not know why.
        obtain ⟨hexit, hmalformed⟩ := hjudges.rejected hrejects
        rw [hexit] at h
        obtain ⟨hcode, rfl⟩ := parse_loop_closed hmalformed.closed h
        refine iff_of_false (fun htells => hcode (htells.mpr hmalformed.reported)) ?_
        exact fun haccepts => haccepts data s (.here hdata hstate) hrejects
      · rcases hjudges.passed hrejects with ⟨hexit, hiterationQuiet⟩ | ⟨hexit, hreported⟩
        · rw [hexit] at h
          rw [← handlers_accept_next hdata hiteration hexit hrejects]
          exact ih (fun hmem => hquiet (hiterationQuiet.reported_iff.mp hmem)) h
        · rw [hexit] at h
          cases h
          exact iff_of_true (iff_of_true rfl hreported)
            (handlers_accept_exit hiteration hexit hrejects)

/-- Whatever the context and the input, the return code tells exactly when no handler rejects a
packet: then a malformed packet is one whose "Remaining Length" is too long. The loop returns
whenever the receive fields are those of a context in use. -/
theorem malformed_returned_iff (user : MQTTInitParams W) (data : List UInt8)
    (context : MQTTContext) (w : W) :
    (RxInvariant context → (mqttParseReceivedData user data ⟨context, w, []⟩).isSome) ∧
      ∀ returnCode s', mqttParseReceivedData user data ⟨context, w, []⟩ = some (returnCode, s') →
        (ReturnCodeTells returnCode s' ↔ HandlersAccept user data ⟨context, w, []⟩) := by
  constructor
  · intro hinv
    obtain ⟨returnCode, s', hparse, -, -⟩ := parse_received_data_total user data data
      ⟨context, w, []⟩ hinv
    rw [hparse]
    rfl
  · exact fun returnCode s' hparse => parse_loop_tells_iff List.not_mem_nil hparse

/-- Whether an output is the report, to be evaluated. -/
def MQTTOutput.isMalformedReport : MQTTOutput → Bool
  | .event (.clientDisconnected .malformedPacket) => true
  | _ => false

/-- The return code of a call, and whether it reports a malformed packet. -/
def parseReports (user : MQTTInitParams W) (data : List UInt8) (s : Session W) :
    Option (MQTTReturnCode × Bool) :=
  (mqttParseReceivedData user data s).map fun result =>
    (result.1, result.2.outputs.any MQTTOutput.isMalformedReport)

theorem parse_of_reports {returnCode : MQTTReturnCode}
    (h : parseReports user data s = some (returnCode, true)) :
    ∃ s', mqttParseReceivedData user data s = some (returnCode, s') ∧
      malformedReport ∈ s'.outputs := by
  obtain ⟨⟨code, s'⟩, hparse, hresult⟩ := Option.map_eq_some_iff.mp h
  simp only [Prod.mk.injEq, List.any_eq_true] at hresult
  obtain ⟨rfl, output, hmem, hreport⟩ := hresult
  refine ⟨s', hparse, ?_⟩
  have houtput : output = malformedReport := by
    unfold MQTTOutput.isMalformedReport at hreport
    split at hreport
    · rfl
    · cases hreport
  rw [← houtput]
  exact hmem

/-- The start of a PUBLISH whose "Remaining Length" goes on after four bytes. -/
def endlessLength : List UInt8 := [controlPUBLISH, 0xFF, 0xFF, 0xFF, 0xFF]

theorem malformed_returned_endless_length :
    ∃ history c, Run benchUser blankContext history c ∧ c.connectionState = .connected ∧
      HandlersAccept benchUser endlessLength ⟨c, ⟨3, 12, 100, false⟩, []⟩ := by
  have hrun : Run benchUser blankContext _ _ :=
    run_of_replayed (show (replay benchUser acceptedClient _).isSome from rfl)
  refine ⟨_, _, hrun, by decide +kernel, ?_⟩
  obtain ⟨s', hparse, hreported⟩ := parse_of_reports (show parseReports benchUser
    endlessLength ⟨(replayed benchUser acceptedClient (mqttInit blankContext)).2,
      ⟨3, 12, 100, false⟩, []⟩ = some (.malformedPacketReceived, true) by decide +kernel)
  have htells := malformed_returned_iff benchUser endlessLength
    (replayed benchUser acceptedClient (mqttInit blankContext)).2 ⟨3, 12, 100, false⟩
  exact (htells.2 .malformedPacketReceived s' hparse).mp (iff_of_true rfl hreported)

/-- A PUBLISH with QoS 2, which the library does not support. -/
def qos2Publish : List UInt8 := [controlPUBLISH ||| 0x04, 2, 0, 0]

/-- The client is disconnected because of a malformed packet, but the return code is success. -/
theorem malformed_not_returned_qos2 :
    ∃ history c s', Run benchUser blankContext history c ∧ c.connectionState = .connected ∧
      mqttParseReceivedData benchUser qos2Publish ⟨c, ⟨3, 12, 100, false⟩, []⟩ =
        some (.success, s') ∧
      malformedReport ∈ s'.outputs := by
  have hrun : Run benchUser blankContext _ _ :=
    run_of_replayed (show (replay benchUser acceptedClient _).isSome from rfl)
  obtain ⟨s', hparse, hreported⟩ := parse_of_reports (show parseReports benchUser
    qos2Publish ⟨(replayed benchUser acceptedClient (mqttInit blankContext)).2,
      ⟨3, 12, 100, false⟩, []⟩ = some (.success, true) by decide +kernel)
  exact ⟨_, _, s', hrun, by decide +kernel, hparse, hreported⟩

end TivaAws.Mqtt
