import TivaAws.Mqtt.Primitives

/-!
# Handlers are runs of transitions

Each handler of a received packet, followed by the reset of the receive state that
`MQTT_ParseReceivedData` makes after it, is a run of transitions.
-/

namespace TivaAws.Mqtt

open Session Labelled

variable {W : Type} {user : MQTTInitParams W} {stream : List UInt8} {s : Session W}

/-! ## Looking up Tx buffers -/

theorem packet_type_flags_get_some {packetType flags : UInt8} {context : MQTTContext}
    {buffer : MQTTBuffer}
    (h : prvPacketTypeFlagsGetTxBuffer packetType flags context = some buffer) :
    buffer ∈ context.txBufferList ∧ buffer.packetType = packetType ∧
      buffer.packetFlags = flags := by
  have hfound := List.find?_some h
  simp only [Bool.and_eq_true, beq_iff_eq] at hfound
  exact ⟨List.mem_of_find?_eq_some h, hfound⟩

theorem packet_type_flags_identifier_get_some {packetType flags : UInt8} {identifier : UInt16}
    {context : MQTTContext} {buffer : MQTTBuffer}
    (h : prvPacketTypeFlagsIdentifierGetTxBuffer packetType flags identifier context =
      some buffer) :
    buffer ∈ context.txBufferList ∧ buffer.packetType = packetType ∧
      buffer.packetFlags = flags ∧ buffer.bufferState.packetIdentifier = identifier := by
  have hfound := List.find?_some h
  simp only [Bool.and_eq_true, beq_iff_eq] at hfound
  exact ⟨List.mem_of_find?_eq_some h, hfound.1.1, hfound.1.2, hfound.2⟩

theorem packet_type_identifier_get_some {packetType : UInt8} {identifier : UInt16}
    {context : MQTTContext} {buffer : MQTTBuffer}
    (h : prvPacketTypeIdentifierGetTxBuffer packetType identifier context = some buffer) :
    buffer ∈ context.txBufferList ∧ buffer.packetType = packetType ∧
      buffer.bufferState.packetIdentifier = identifier := by
  have hfound := List.find?_some h
  simp only [Bool.and_eq_true, beq_iff_eq] at hfound
  exact ⟨List.mem_of_find?_eq_some h, hfound⟩

/-! ## Dropping the connection -/

theorem Session.update_of_eq {change : MQTTContext → MQTTContext}
    (h : change s.context = s.context) : s.update change = s := by
  cases s
  simp only [Session.update] at h ⊢
  rw [h]

/-- A malformed packet, a refused connection or a connect timeout drops the connection. -/
theorem does_drop {op : Op} (reason : MQTTDisconnectReason) (hop : op.Drops reason)
    (hstate : s.context.connectionState ≠ .notConnected) :
    Does user op s (resetAndReport user reason s) := by
  obtain ⟨result, hcalls, hcontext⟩ := reset_and_report_spec user reason s
  exact hcalls.does hcontext (.drop reason result hop hstate)

/-- After the reset there is no Rx buffer and nothing left to reset. -/
theorem reset_and_report_settled (reason : MQTTDisconnectReason) (s : Session W) :
    (resetAndReport user reason s).context.rxHandle = none ∧
      (resetAndReport user reason s).update prvResetRxMessageState =
        resetAndReport user reason s := by
  obtain ⟨result, -, hcontext⟩ := reset_and_report_spec user reason s
  refine ⟨by rw [hcontext]; rfl, Session.update_of_eq ?_⟩
  rw [hcontext]
  rfl

/-- Returning the Rx buffer does nothing after the reset. -/
theorem finish_packet_reset (reason : MQTTDisconnectReason) (s : Session W) :
    finishPacket user false (resetAndReport user reason s) = resetAndReport user reason s := by
  unfold finishPacket
  simp only [Bool.false_eq_true, if_false]
  rw [(reset_and_report_settled reason s).1, return_buffer_none]

theorem finish_packet_malformed (s : Session W) :
    finishPacket user true s = resetAndReport user .malformedPacket s := by
  unfold finishPacket
  simp only [if_true]
  rw [(reset_and_report_settled .malformedPacket s).1, return_buffer_none]

/-- A malformed packet drops the connection, whatever handler finds it. -/
theorem does_malformed (hstate : s.context.connectionState ≠ .notConnected) :
    Does user (.parseReceivedData stream) s
      ((finishPacket user true s).update prvResetRxMessageState) := by
  rw [finish_packet_malformed, (reset_and_report_settled .malformedPacket s).2]
  exact does_drop .malformedPacket rfl hstate

theorem does_drop_reset (hstate : s.context.connectionState ≠ .notConnected) :
    Does user (.parseReceivedData stream) s
      ((resetAndReport user .malformedPacket s).update prvResetRxMessageState) := by
  rw [(reset_and_report_settled .malformedPacket s).2]
  exact does_drop .malformedPacket rfl hstate

/-! ## Finishing a packet -/

variable {rxBuffer : MQTTBuffer}

/-- Returning the Rx buffer and resetting the receive state is one transition. -/
theorem does_release (hstate : s.context.connectionState ≠ .notConnected)
    (hrx : s.context.rxBuffer = some rxBuffer) :
    Does user (.parseReceivedData stream) s
      ((prvReturnBuffer user s.context.rxHandle s).update prvResetRxMessageState) := by
  have hhandle : s.context.rxHandle = some rxBuffer.handle := by
    simp [MQTTContext.rxHandle, hrx]
  rw [hhandle]
  exact ((calls_return_buffer rxBuffer.handle s).update _).does rfl
    (.releaseRx rxBuffer trivial hstate hrx)

/-- The end of a handler that has changed neither the Rx buffer nor closed the connection. -/
theorem Session.Does.finish {s' : Session W} (hdoes : Does user (.parseReceivedData stream) s s')
    (rxBuffer : MQTTBuffer) (hstate : s'.context.connectionState ≠ .notConnected)
    (hrx : s'.context.rxBuffer = some rxBuffer) :
    Does user (.parseReceivedData stream) s
      ((finishPacket user false s').update prvResetRxMessageState) := by
  refine hdoes.trans ?_
  unfold finishPacket
  rw [if_neg Bool.false_ne_true]
  exact does_release hstate hrx

/-- Reporting a notice and finishing the packet. -/
theorem does_notice_finish (event : MQTTEvent) (hnotice : event.IsNotice)
    (hevent : ∀ publish, event ≠ .publish publish)
    (hstate : s.context.connectionState ≠ .notConnected)
    (hrx : s.context.rxBuffer = some rxBuffer) :
    Does user (.parseReceivedData stream) s
      ((finishPacket user false (prvInvokeCallback user event s).2).update
        prvResetRxMessageState) := by
  obtain ⟨hdoes, hcontext⟩ := invoke_callback_notice user (.parseReceivedData stream) event
    hnotice hevent s
  exact hdoes.finish rxBuffer (by rw [hcontext]; exact hstate) (by rw [hcontext]; exact hrx)

/-- Reporting the end of an operation, settling the subscription manager, returning the buffer of
the operation and finishing the packet. -/
theorem does_settle_finish {event : MQTTEvent} {txBuffer : MQTTBuffer}
    (hstate : s.context.connectionState ≠ .notConnected)
    (hrx : s.context.rxBuffer = some rxBuffer) (hmem : txBuffer ∈ s.context.txBufferList)
    (hsettles : Settles (.parseReceivedData stream) txBuffer event)
      {settle : MQTTContext → MQTTContext}
    (hsettle : settle s.context = { s.context with
      subscriptionManager := settledManager txBuffer event s.context.subscriptionManager }) :
    Does user (.parseReceivedData stream) s
      ((finishPacket user false (prvReturnBuffer user (some txBuffer.handle)
        ((prvInvokeCallback user event s).2.update settle))).update prvResetRxMessageState) := by
  obtain ⟨hcalls, hcontext⟩ := invoke_callback_spec user event
    (by cases hsettles <;> simp) s
  have hcontext' : (prvReturnBuffer user (some txBuffer.handle)
      ((prvInvokeCallback user event s).2.update settle)).context =
      { s.context.unlink txBuffer.handle with
        subscriptionManager := settledManager txBuffer event s.context.subscriptionManager } := by
    rw [return_buffer_context, update_context, hcontext, hsettle]
    rfl
  have hdoes : Does user (.parseReceivedData stream) s _ :=
    ((hcalls.update settle).trans (calls_return_buffer txBuffer.handle _)).does hcontext'
      (.settle txBuffer event _ hstate hmem hsettles)
  refine hdoes.finish rxBuffer ?_ ?_
  · rw [hcontext']
    exact hstate
  · rw [hcontext']
    exact hrx

/-! ## Handlers -/

section Connack

variable {connect : MQTTBuffer}

/-- An accepted connection opens with one transition. -/
theorem does_accept_connection (rxBuffer : MQTTBuffer)
    (hstate : s.context.connectionState ≠ .notConnected)
    (hrx : s.context.rxBuffer = some rxBuffer) (hmem : connect ∈ s.context.txBufferList)
    (hconnect : connect.IsConnect) :
    Does user (.parseReceivedData stream) s
      ((acceptConnection user connect s).update prvResetRxMessageState) := by
  obtain ⟨hevent, hcontext⟩ := invoke_callback_spec user
    (.connACK .connectionAccepted connect.bufferState.packetIdentifier) (by simp) s
  have hreturn := (hevent.trans (calls_return_buffer connect.handle _)).update fun context =>
    { context with connectionState := .connected }
  unfold acceptConnection
  simp only
  generalize hopen : (prvReturnBuffer user (some connect.handle) (prvInvokeCallback user
    (.connACK .connectionAccepted connect.bufferState.packetIdentifier) s).2).update
    (fun context => { context with connectionState := .connected }) = opened at hreturn ⊢
  have hopened : opened.context =
      { s.context.unlink connect.handle with connectionState := .connected } := by
    rw [← hopen, update_context, return_buffer_context, hcontext]
  obtain ⟨hnow, hnowContext⟩ := get_current_tick_count_spec user opened
  have haccept := ((hreturn.trans hnow).update
      (MQTTContext.restartKeepAlive (prvGetCurrentTickCount user opened).1)).update
    fun context => { context with waitingForPingResp := false }
  rw [List.append_assoc] at haccept
  rw [hopened] at hnowContext
  have hdoes : Does user (.parseReceivedData stream) s _ := haccept.does
    (by rw [update_context, update_context, hnowContext])
    (.accept connect _ _ trivial hstate hmem hconnect)
  refine hdoes.finish rxBuffer ?_ ?_
  · rw [update_context, update_context, hnowContext]
    exact (by decide : MQTTConnectionState.connected ≠ .notConnected)
  · rw [update_context, update_context, hnowContext]
    exact hrx

/-- A refused connection is dropped with one transition. -/
theorem does_refuse_connection (hstate : s.context.connectionState ≠ .notConnected)
    (hmem : connect ∈ s.context.txBufferList) (hconnect : connect.IsConnect)
    {returnCode : MQTTConnACKReturnCode} (hcode : returnCode ≠ .connectionAccepted) :
    Does user (.parseReceivedData stream) s
      ((refuseConnection user connect returnCode s).update prvResetRxMessageState) := by
  obtain ⟨hevent, hcontext⟩ := invoke_callback_spec user
    (.connACK returnCode connect.bufferState.packetIdentifier) (by simp) s
  have hreturn := hevent.trans (calls_return_buffer connect.handle _)
  unfold refuseConnection
  simp only
  rw [finish_packet_reset, (reset_and_report_settled _ _).2]
  obtain ⟨result, hreset, hresetContext⟩ := reset_and_report_spec user
    .brokerRefusedConnection (prvReturnBuffer user (some connect.handle)
      (prvInvokeCallback user (.connACK returnCode connect.bufferState.packetIdentifier) s).2)
  have hall := hreturn.trans hreset
  rw [return_buffer_context, hcontext] at hall hresetContext
  rw [List.append_assoc] at hall
  exact hall.does hresetContext
    (.refuse connect .brokerRefusedConnection result _ trivial hstate hmem
    hconnect (Or.inr ⟨returnCode, _, hcode, rfl⟩))

/-- A malformed CONNACK also returns the CONNECT buffer when it drops the connection. -/
theorem does_malformed_connack (hstate : s.context.connectionState ≠ .notConnected)
    (hmem : connect ∈ s.context.txBufferList) (hconnect : connect.IsConnect) :
    Does user (.parseReceivedData stream) s
      ((finishPacket user true (prvReturnBuffer user (some connect.handle) s)).update
        prvResetRxMessageState) := by
  rw [finish_packet_malformed, (reset_and_report_settled _ _).2]
  obtain ⟨result, hreset, hcontext⟩ := reset_and_report_spec user .malformedPacket
    (prvReturnBuffer user (some connect.handle) s)
  exact ((calls_return_buffer connect.handle s).trans hreset).does hcontext
    (.refuse connect .malformedPacket result [] trivial hstate hmem hconnect (Or.inl rfl))

end Connack

theorem does_connack (rxBuffer : MQTTBuffer)
    (hstate : s.context.connectionState ≠ .notConnected)
    (hrx : s.context.rxBuffer = some rxBuffer) :
    Does user (.parseReceivedData stream) s
      ((prvProcessReceivedCONNACK user rxBuffer s).update prvResetRxMessageState) := by
  unfold prvProcessReceivedCONNACK
  cases hfind : prvPacketTypeFlagsGetTxBuffer controlCONNECT flagsCONNECT s.context with
  | none => exact does_notice_finish .unexpectedConnACK trivial (by simp) hstate hrx
  | some connect =>
      obtain ⟨hmem, hconnect⟩ := packet_type_flags_get_some hfind
      simp only
      by_cases hlength : rxBuffer.dataLength ≥ defaultCONNACKParameters.length
      · rw [if_pos hlength]
        refine (does_access 0 fixedHeaderMinSize).trans ?_
        by_cases hheader : rxBuffer.data.readBytes 0 fixedHeaderMinSize =
            defaultCONNACKParameters.take fixedHeaderMinSize
        · rw [if_pos hheader]
          refine (does_access 3 1).trans ?_
          cases hcode : connACKReturnCode (rxBuffer.data 3) with
          | none => exact does_malformed_connack hstate hmem hconnect
          | some returnCode =>
              by_cases haccepted : returnCode = .connectionAccepted
              · simp only [if_pos haccepted]
                exact does_accept_connection rxBuffer hstate hrx hmem hconnect
              · simp only [if_neg haccepted]
                exact does_refuse_connection (s := (s.emit (.access 0 fixedHeaderMinSize)).emit
                  (.access 3 1)) hstate hmem hconnect haccepted
        · rw [if_neg hheader]
          exact does_malformed_connack hstate hmem hconnect
      · rw [if_neg hlength]
        exact does_malformed_connack hstate hmem hconnect

theorem does_suback (rxBuffer : MQTTBuffer)
    (hstate : s.context.connectionState ≠ .notConnected)
    (hrx : s.context.rxBuffer = some rxBuffer) :
    Does user (.parseReceivedData stream) s
      ((prvProcessReceivedSUBACK user rxBuffer s).update prvResetRxMessageState) := by
  unfold prvProcessReceivedSUBACK
  simp only
  by_cases hlength : rxBuffer.dataLength >
      adjustOffset 4 s.context.rxMessageState.remainingLengthFieldBytes
  · rw [if_pos hlength]
    generalize s.context.rxMessageState.remainingLengthFieldBytes = fieldBytes
    refine (does_access (adjustOffset 2 fieldBytes) 2).trans ?_
    generalize hs' : s.emit (.access (adjustOffset 2 fieldBytes) 2) = s'
    have hsame : s'.context = s.context := by
      rw [← hs']
      rfl
    rw [← hsame] at hstate hrx
    generalize hidentifier : word16 (rxBuffer.data (adjustOffset 2 fieldBytes))
      (rxBuffer.data (adjustOffset 3 fieldBytes)) = packetIdentifier
    cases hfind : prvPacketTypeFlagsIdentifierGetTxBuffer controlSUBSCRIBE flagsSUBSCRIBE
        packetIdentifier s'.context with
    | none => exact does_notice_finish .unexpectedSubACK trivial (by simp) hstate hrx
    | some subscribe =>
        obtain ⟨hmem, htype, hflags, hpacket⟩ := packet_type_flags_identifier_get_some hfind
        refine (does_access (adjustOffset 4 fieldBytes) 1).trans ?_
        simp only
        cases subACKReturnCode (rxBuffer.data (adjustOffset 4 fieldBytes)) with
        | none => exact does_malformed hstate
        | some returnCode =>
            rw [← hpacket]
            refine does_settle_finish (s := s'.emit (.access (adjustOffset 4 fieldBytes) 1))
              hstate hrx hmem (.subACK returnCode trivial htype hflags) ?_
            cases returnCode with
            | successQos0 => rfl
            | successQos1 => rfl
            | subACKFailure => rfl
  · rw [if_neg hlength]
    exact does_malformed hstate

/-- UNSUBACK and PUBACK settle the operation they acknowledge. -/
theorem does_ack (rxBuffer : MQTTBuffer) {fixedHeader : List UInt8}
    {find : UInt16 → MQTTContext → Option MQTTBuffer} {unexpected : MQTTEvent}
    {acknowledged : UInt16 → MQTTEvent} {settle : MQTTBuffer → MQTTContext → MQTTContext}
    (hunexpected : unexpected.IsNotice) (hevent : ∀ publish, unexpected ≠ .publish publish)
    (hfound : ∀ {identifier context txBuffer}, find identifier context = some txBuffer →
      txBuffer ∈ context.txBufferList ∧
        Settles (.parseReceivedData stream) txBuffer (acknowledged identifier))
    (hsettle : ∀ identifier txBuffer (context : MQTTContext),
      settle txBuffer context = { context with
        subscriptionManager := settledManager txBuffer (acknowledged identifier)
          context.subscriptionManager })
    (hstate : s.context.connectionState ≠ .notConnected)
    (hrx : s.context.rxBuffer = some rxBuffer) :
    Does user (.parseReceivedData stream) s
      ((processReceivedACK user fixedHeader find unexpected acknowledged settle rxBuffer s).update
        prvResetRxMessageState) := by
  unfold processReceivedACK
  by_cases hlength : rxBuffer.dataLength ≥ fixedHeader.length + 2
  · rw [if_pos hlength]
    refine (does_access 0 fixedHeader.length).trans ?_
    generalize hs' : s.emit (.access 0 fixedHeader.length) = s'
    have hsame : s'.context = s.context := by
      rw [← hs']
      rfl
    rw [← hsame] at hstate hrx
    by_cases hheader : rxBuffer.data.readBytes 0 fixedHeader.length = fixedHeader
    · rw [if_pos hheader]
      simp only
      generalize s'.context.rxMessageState.remainingLengthFieldBytes = fieldBytes
      refine (does_access (adjustOffset 2 fieldBytes) 2).trans ?_
      generalize word16 (rxBuffer.data (adjustOffset 2 fieldBytes))
        (rxBuffer.data (adjustOffset 3 fieldBytes)) = packetIdentifier
      -- The identifier decides: a packet that waits for this answer is settled, and an answer to
      -- none is only reported.
      cases hfind : find packetIdentifier
          (s'.emit (.access (adjustOffset 2 fieldBytes) 2)).context with
      | none =>
          exact does_notice_finish (s := s'.emit (.access (adjustOffset 2 fieldBytes) 2))
            unexpected hunexpected hevent hstate hrx
      | some txBuffer =>
          obtain ⟨hmem, hsettles⟩ := hfound hfind
          exact does_settle_finish (s := s'.emit (.access (adjustOffset 2 fieldBytes) 2))
            hstate hrx hmem hsettles (hsettle packetIdentifier txBuffer _)
    · rw [if_neg hheader]
      exact does_malformed hstate
  · rw [if_neg hlength]
    exact does_malformed hstate

theorem does_unsuback (rxBuffer : MQTTBuffer)
    (hstate : s.context.connectionState ≠ .notConnected)
    (hrx : s.context.rxBuffer = some rxBuffer) :
    Does user (.parseReceivedData stream) s
      ((prvProcessReceivedUNSUBACK user rxBuffer s).update prvResetRxMessageState) := by
  refine does_ack rxBuffer trivial (by simp) ?_ (fun _ _ _ => rfl) hstate hrx
  intro identifier context txBuffer hfind
  obtain ⟨hmem, htype, hflags, rfl⟩ := packet_type_flags_identifier_get_some hfind
  exact ⟨hmem, .unSubACK trivial htype hflags⟩

theorem does_puback (rxBuffer : MQTTBuffer)
    (hstate : s.context.connectionState ≠ .notConnected)
    (hrx : s.context.rxBuffer = some rxBuffer) :
    Does user (.parseReceivedData stream) s
      ((prvProcessReceivedPUBACK user rxBuffer s).update prvResetRxMessageState) := by
  refine does_ack rxBuffer trivial (by simp) ?_ (fun _ _ _ => rfl) hstate hrx
  intro identifier context txBuffer hfind
  obtain ⟨hmem, htype, rfl⟩ := packet_type_identifier_get_some hfind
  exact ⟨hmem, .pubACK trivial htype⟩

/-- Without an Rx buffer the receive state can be reset at any time. -/
theorem does_reset_rx
    (hstate : s.context.connectionState ≠ .notConnected) (hrx : s.context.rxBuffer = none) :
    Does user (.parseReceivedData stream) s (s.update prvResetRxMessageState) := by
  refine ((Calls.refl s).update _).does rfl (.receive trivial hstate rfl ?_)
  simp [MQTTContext.rxHandle, prvResetRxMessageState, hrx]

/-- PINGRESP ends the wait for it with one transition, which is the handling of the packet. -/
theorem does_pingresp {packet : List UInt8}
    (hexact : s.context.rxFixedHeaderBuffer.readBytes 0 pingRespPacket.length = pingRespPacket →
      packet = pingRespPacket)
    (hstate : s.context.connectionState ≠ .notConnected) (hrx : s.context.rxBuffer = none) :
    Does user (.parseReceivedData stream) s
      ((prvProcessReceivedPINGRESP user ((s.emit (.handled packet)).emit (.access 0 1))).update
        prvResetRxMessageState) := by
  have hhandled : Calls user s [.handled packet, .access 0 1]
      ((s.emit (.handled packet)).emit (.access 0 1)) :=
    (calls_handled packet).trans (calls_access 0 1)
  have hquiet : Does user (.parseReceivedData stream) s
      ((s.emit (.handled packet)).emit (.access 0 1)) :=
    (does_handled packet).trans (does_access 0 1)
  have hsame : ((s.emit (.handled packet)).emit (.access 0 1)).context = s.context := rfl
  generalize (s.emit (.handled packet)).emit (.access 0 1) = s' at hhandled hquiet hsame ⊢
  unfold prvProcessReceivedPINGRESP
  rw [← hsame] at hexact hstate hrx
  by_cases hlength : s'.context.rxMessageReceivedLength ≥ pingRespPacket.length
  · rw [if_pos hlength]
    have hread : Calls user s [.handled packet, .access 0 1, .access 0 pingRespPacket.length]
        (s'.emit (.access 0 pingRespPacket.length)) :=
      hhandled.trans (calls_access 0 pingRespPacket.length)
    have hquiet' := hquiet.trans (does_access 0 pingRespPacket.length)
    have hsame' : (s'.emit (.access 0 pingRespPacket.length)).context = s'.context := rfl
    simp only
    generalize s'.emit (.access 0 pingRespPacket.length) = received at hread hquiet' hsame' ⊢
    rw [← hsame'] at hexact hstate hrx
    by_cases hpacket : received.context.rxFixedHeaderBuffer.readBytes 0 pingRespPacket.length =
        pingRespPacket
    · rw [if_pos hpacket]
      -- A PINGRESP that is not waited for is dropped without a notice.
      by_cases hwaiting : received.context.waitingForPingResp = true
      · rw [if_pos hwaiting]
        generalize hanswered :
          (received.update fun context => { context with waitingForPingResp := false }) = answered
        obtain ⟨hnow, hcontext⟩ := get_current_tick_count_spec user answered
        have hanswer : answered.context =
            { received.context with waitingForPingResp := false } := by
          rw [← hanswered]
          rfl
        rw [hanswer] at hcontext
        have hcalls : Calls user received (user.clock (prvGetCurrentTickCount user answered).1)
            (prvGetCurrentTickCount user answered).2 := by
          rw [← hanswered] at hnow ⊢
          exact hnow.of_update
        rw [hexact hpacket] at hread
        have hpong : Does user (.parseReceivedData stream) s _ :=
          ((hread.trans hcalls).update
            (MQTTContext.restartKeepAlive (prvGetCurrentTickCount user answered).1)).does
            (by rw [update_context, hcontext, hsame', hsame])
            (.pong _ trivial (by rw [← hsame, ← hsame']; exact hwaiting))
        refine hpong.trans (does_reset_rx ?_ ?_)
        · rw [update_context, hcontext]
          exact hstate
        · rw [update_context, hcontext]
          exact hrx
      · rw [if_neg hwaiting]
        exact hquiet'.trans (does_reset_rx hstate hrx)
    · rw [if_neg hpacket]
      exact hquiet'.trans (does_drop_reset hstate)
  · rw [if_neg hlength]
    exact hquiet.trans (does_drop_reset hstate)

/-! ## PUBLISH -/

/-- PUBACK is one whole packet. -/
theorem framed_puback (msb lsb : UInt8) : Framed (pubACKPacket msb lsb) := by
  refine ⟨controlPUBACK, [2], [msb, lsb], rfl, ⟨[], 2, rfl, by simp, by decide⟩, ?_, ?_⟩
  · decide
  · show Varint.value [2] = 2
    decide

variable (user stream)

/-- A packet without a buffer is one transition. -/
theorem does_send {data : List UInt8} (hstate : s.context.connectionState ≠ .notConnected)
    (hframed : Framed data) :
    Does user (.parseReceivedData stream) s (prvSendData user data s).2 ∧
      (prvSendData user data s).2.context.connectionState = s.context.connectionState ∧
      (prvSendData user data s).2.context.rxBuffer = s.context.rxBuffer := by
  obtain ⟨count, t, hcalls, hcontext, -⟩ := send_data_spec user data s
  refine ⟨hcalls.does hcontext (.send data count t (Or.inl trivial) hstate hframed), ?_, ?_⟩
  · rw [hcontext]
    split_ifs <;> rfl
  · rw [hcontext]
    split_ifs <;> rfl

/-- The acknowledgment of a QoS 1 publish changes neither the state nor the Rx buffer. -/
theorem does_acknowledge_publish (rxBuffer : MQTTBuffer) (qos : MQTTQoS) (identifierOffset : Nat)
    (hstate : s.context.connectionState ≠ .notConnected) :
    let acknowledged :=
      if qos = .qos1 then
        (prvSendData user (pubACKPacket (rxBuffer.data identifierOffset)
          (rxBuffer.data (identifierOffset + 1))) (s.emit (.access identifierOffset 2))).2
      else s
    Does user (.parseReceivedData stream) s acknowledged ∧
      acknowledged.context.connectionState = s.context.connectionState ∧
      acknowledged.context.rxBuffer = s.context.rxBuffer := by
  intro acknowledged
  by_cases hqos : qos = .qos1
  · obtain ⟨hsend, hstate', hrx'⟩ := does_send user stream
      (s := s.emit (.access identifierOffset 2)) hstate
      (framed_puback (rxBuffer.data identifierOffset) (rxBuffer.data (identifierOffset + 1)))
    simp only [acknowledged, if_pos hqos]
    exact ⟨(does_access _ _).trans hsend, hstate', hrx'⟩
  · simp only [acknowledged, if_neg hqos]
    exact ⟨.refl s, trivial, trivial⟩

variable {user stream}

theorem does_publish (rxBuffer : MQTTBuffer)
    (hstate : s.context.connectionState ≠ .notConnected)
    (hrx : s.context.rxBuffer = some rxBuffer) :
    Does user (.parseReceivedData stream) s
      ((prvProcessReceivedPublish user rxBuffer s).update prvResetRxMessageState) := by
  unfold prvProcessReceivedPublish
  cases publishQoS rxBuffer.controlByte with
  | none => exact does_drop_reset hstate
  | some qos =>
      simp only
      generalize receivedPublishData qos rxBuffer s.context.rxMessageState = publish
      refine (does_access (publish.topicOffset - 2) 2).trans ?_
      obtain ⟨hack, hackState, hackRx⟩ := does_acknowledge_publish user stream
          (s := s.emit (.access (publish.topicOffset - 2) 2)) rxBuffer qos
        (publish.topicOffset + publish.topicLength) hstate
      refine hack.trans ((does_access publish.topicOffset publish.topicLength).trans
        ((does_access publish.dataOffset publish.dataLength).trans ?_))
      generalize hhanded : Session.emit (.access publish.dataOffset publish.dataLength)
        (Session.emit (.access publish.topicOffset publish.topicLength) _) = handed
      have hopen : handed.context.connectionState ≠ .notConnected := by
        rw [← hhanded, emit_context, emit_context, hackState]
        exact hstate
      have hbuffer : handed.context.rxBuffer = some rxBuffer := by
        rw [← hhanded, emit_context, emit_context, hackRx]
        exact hrx
      obtain ⟨hdoes, hcontext⟩ := invoke_callback_publish user (.parseReceivedData stream)
        publish handed
      refine hdoes.trans ?_
      rw [← hcontext] at hopen hbuffer
      generalize prvInvokeCallback user (.publish publish) handed = answer at hopen hbuffer ⊢
      by_cases htaken : answer.1 = true
      · rw [if_pos htaken]
        have hcalls : Calls user answer.2 [.taken rxBuffer.handle]
          (answer.2.emit (.taken rxBuffer.handle)) := calls_emit rfl
        exact (hcalls.update _).does rfl (.takeRx rxBuffer trivial hopen hbuffer)
      · rw [if_neg htaken]
        exact does_release hopen hbuffer

/-! ## Dispatch -/

/-- A packet without a body. -/
theorem does_fixed_header_only
    (hexact : s.context.rxFixedHeaderBuffer.readBytes 0 pingRespPacket.length = pingRespPacket →
      s.context.rxFixedHeaderBuffer.readBytes 0 s.context.rxMessageReceivedLength = pingRespPacket)
    (hstate : s.context.connectionState ≠ .notConnected) (hrx : s.context.rxBuffer = none) :
    Does user (.parseReceivedData stream) s
      ((prvProcessReceivedFixedHeaderOnlyMQTTPacket user s).update prvResetRxMessageState) := by
  unfold prvProcessReceivedFixedHeaderOnlyMQTTPacket
  simp only
  split_ifs
  · exact does_pingresp hexact hstate hrx
  · exact ((does_handled _).trans (does_access 0 1)).trans (does_drop_reset hstate)

/-- A packet with a body, in the Rx buffer. -/
theorem does_packet (rxBuffer : MQTTBuffer)
    (hstate : s.context.connectionState ≠ .notConnected)
    (hrx : s.context.rxBuffer = some rxBuffer) :
    Does user (.parseReceivedData stream) s
      ((prvProcessReceivedMQTTPacket user rxBuffer s).update prvResetRxMessageState) := by
  unfold prvProcessReceivedMQTTPacket
  refine (does_handled rxBuffer.packet).trans ((does_access 0 1).trans ?_)
  simp only
  split_ifs
  · exact does_publish rxBuffer hstate hrx
  · exact does_connack rxBuffer hstate hrx
  · exact does_puback rxBuffer hstate hrx
  · exact does_suback rxBuffer hstate hrx
  · exact does_unsuback rxBuffer hstate hrx
  · exact does_drop_reset hstate

end TivaAws.Mqtt
