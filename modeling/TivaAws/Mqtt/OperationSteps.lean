import TivaAws.Mqtt.HandlerSteps
import TivaAws.Mqtt.Packets

/-!
# Operations are runs of transitions

Every public operation other than `MQTT_ParseReceivedData` is a run of transitions, and its return
code says whether a buffer was left on the Tx list.
-/

namespace TivaAws.Mqtt

open Session Labelled ByteMemory

variable {W : Type} (user : MQTTInitParams W) {op : Op} {s : Session W}

/-! ## Creating and transmitting a packet -/

variable (remainingLength : Nat) (timeoutTicks : UInt32) (packetIdentifier : UInt16)
  (write : MQTTBuffer → ByteMemory)

/-- What creating and transmitting a packet comes to: there is no packet, or it is in a buffer at
the head of the Tx list and the send function has accepted all or part of it. -/
inductive Submitted (op : Op) (s : Session W) :
    Option MQTTBuffer → MQTTReturnCode × Session W → Prop where
  | refused {returnCode s'} : returnCode ≠ .success → Does user op s s' →
      s'.context = s.context → Submitted op s none (returnCode, s')
  | sent {returnCode s'} (buffer : MQTTBuffer) (count t t') :
      buffer.Holds remainingLength packetIdentifier write →
      Calls user s (.obtained buffer.handle :: (user.clock t ++
        user.transmitted buffer.packet count t')) s' →
      s'.context = (if count = buffer.packet.length then
        (s.context.link buffer).restartKeepAlive t' else s.context.link buffer) →
      (returnCode = .success ↔ count = buffer.packet.length) →
      Submitted op s (some buffer) (returnCode, s')

theorem submitted (op : Op) (s : Session W) :
    Submitted user remainingLength packetIdentifier write op s
      (createPacket user remainingLength timeoutTicks packetIdentifier write s).2.1
      (transmitPacket user
        (createPacket user remainingLength timeoutTicks packetIdentifier write s)) := by
  unfold createPacket
  simp only
  by_cases hsize : prvSizeOfRemainingLength remainingLength > 0
  · rw [if_pos hsize]
    have hpermitted := (size_pos_iff remainingLength).mp hsize
    generalize hmessage : totalMessageLength (prvSizeOfRemainingLength remainingLength)
      remainingLength = messageLength
    cases hbuffer : (prvGetFreeBuffer user messageLength s).1 with
    | none =>
        obtain ⟨hdoes, hcontext⟩ := get_free_buffer_none op hbuffer
        exact .refused (by simp) hdoes hcontext
    | some fresh =>
        obtain ⟨hobtained, hcontext, hroom⟩ := get_free_buffer_some hbuffer
        obtain ⟨hnow, hnowContext⟩ := get_current_tick_count_spec user
          (prvGetFreeBuffer user messageLength s).2
        simp only
        generalize prvGetCurrentTickCount user (prvGetFreeBuffer user messageLength s).2 = now
          at hnow hnowContext ⊢
        generalize hfilled : ({ fresh with
          bufferState := ⟨now.1, timeoutTicks, packetIdentifier⟩
          dataLength := messageLength
          data := write fresh } : MQTTBuffer) = buffer
        have hholds : buffer.Holds remainingLength packetIdentifier write := by
          subst hfilled
          refine ⟨hpermitted, rfl, hmessage.symm, fresh, rfl, ?_⟩
          rw [hmessage]
          refine hroom ?_
          have hfour := size_le_four remainingLength
          unfold maxRemainingLength at hpermitted
          unfold sizeofMQTTBufferMetadata
          unfold totalMessageLength at hmessage
          omega
        have hhandle : fresh.handle = buffer.handle := by
          subst hfilled
          rfl
        obtain ⟨count, t, hsend, hsent, hcode⟩ := send_data_spec user buffer.packet
          (now.2.update (MQTTContext.link buffer))
        rw [hhandle] at hobtained
        rw [update_context, hnowContext, hcontext] at hsent
        have hlinked := ((hobtained.trans hnow).update (MQTTContext.link buffer)).trans hsend
        simp only [List.append_assoc] at hlinked
        exact .sent buffer count now.1 t hholds hlinked hsent hcode
  · rw [if_neg hsize]
    exact .refused (by simp) (.refl s) rfl

/-- Returning the buffer at the head of the Tx list undoes its linking. -/
theorem unlink_link (context : MQTTContext) (buffer : MQTTBuffer) :
    (context.link buffer).unlink buffer.handle = context := by
  simp [MQTTContext.unlink, MQTTContext.link]

/-- A packet that was handed to the send function and whose buffer goes back at once. -/
theorem does_transient (op : Op) {count : Nat} {t t' : UInt64} {s' : Session W}
    {buffer : MQTTBuffer} (hcalls : Calls user s (.obtained buffer.handle :: (user.clock t ++
      user.transmitted buffer.packet count t')) s')
    (hcontext : s'.context = (if count = buffer.packet.length then
      (s.context.link buffer).restartKeepAlive t' else s.context.link buffer))
    (hstate : op.Connects ∧ s.context.connectionState = .notConnected ∨
      ¬ op.Connects ∧ s.context.connectionState = .connected)
    (hawaits : op.Connects ∨ op.Awaits → count ≠ buffer.packet.length)
    (hcarries : buffer.Carries op) :
    Does user op s (prvReturnBuffer user (some buffer.handle) s') ∧
      (prvReturnBuffer user (some buffer.handle) s').context =
        (if count = buffer.packet.length then s.context.restartKeepAlive t' else s.context) := by
  have hreturned : (prvReturnBuffer user (some buffer.handle) s').context =
      (if count = buffer.packet.length then s.context.restartKeepAlive t' else s.context) := by
    rw [return_buffer_context, hcontext]
    split_ifs
    · exact congrArg (MQTTContext.restartKeepAlive t') (unlink_link s.context buffer)
    · exact unlink_link s.context buffer
  refine ⟨?_, hreturned⟩
  have hall := hcalls.trans (calls_return_buffer buffer.handle s')
  simp only [List.cons_append, List.append_assoc] at hall
  exact hall.does hreturned (.transient buffer count t t' hstate hawaits hcarries)

/-- What submitting a packet comes to: it waits on the Tx list, or the Tx list and everything but
the keep-alive timer is as before. -/
inductive SubmitOutcome (op : Op) (acknowledged : Bool) (s : Session W) :
    MQTTReturnCode × Session W → Prop where
  | pending {s'} (buffer : MQTTBuffer) (t t') : acknowledged = true →
      buffer.Holds remainingLength packetIdentifier write →
      Calls user s (.obtained buffer.handle :: (user.clock t ++
        user.transmitted buffer.packet buffer.packet.length t')) s' →
      s'.context = (s.context.link buffer).restartKeepAlive t' →
      SubmitOutcome op acknowledged s (.success, s')
  | failed {returnCode s'} : returnCode ≠ .success → Does user op s s' →
      s'.context = s.context → SubmitOutcome op acknowledged s (returnCode, s')
  | gone {s'} (t') : acknowledged = false → Does user op s s' →
      s'.context = s.context.restartKeepAlive t' →
      SubmitOutcome op acknowledged s (.success, s')

variable {remainingLength write}

theorem submit_outcome (op : Op)
    (hcarries : ∀ buffer : MQTTBuffer, buffer.Holds remainingLength packetIdentifier write →
      buffer.Carries op)
    (acknowledged : Bool) (hawaits : op.Connects ∨ op.Awaits → acknowledged = true) (s : Session W)
    (hstate : op.Connects ∧ s.context.connectionState = .notConnected ∨
      ¬ op.Connects ∧ s.context.connectionState = .connected) :
    SubmitOutcome user remainingLength packetIdentifier write op acknowledged s
      (submitPacket user remainingLength timeoutTicks packetIdentifier write acknowledged s) := by
  have hsubmitted := submitted user remainingLength timeoutTicks packetIdentifier write op s
  unfold submitPacket
  simp only
  generalize createPacket user remainingLength timeoutTicks packetIdentifier write s = created
    at hsubmitted ⊢
  generalize created.2.1 = linked at hsubmitted ⊢
  generalize transmitPacket user created = sent at hsubmitted ⊢
  cases hsubmitted with
  | refused hcode hdoes hcontext =>
      rw [if_pos (Or.inl hcode)]
      exact .failed hcode hdoes hcontext
  | @sent returnCode s' buffer count t t' hholds hcalls hcontext hcode =>
      by_cases hcount : count = buffer.packet.length
      · have hsuccess := hcode.mpr hcount
        subst hsuccess
        subst hcount
        rw [if_pos rfl] at hcontext
        cases acknowledged with
        | true =>
            rw [if_neg (by simp)]
            exact .pending buffer t t' rfl hholds hcalls hcontext
        | false =>
            rw [if_pos (Or.inr rfl)]
            obtain ⟨hdoes, hreturned⟩ := does_transient user op hcalls
              (by rw [if_pos rfl, hcontext]) hstate
              (fun h => absurd (hawaits h) Bool.false_ne_true) (hcarries buffer hholds)
            rw [if_pos rfl] at hreturned
            exact .gone t' rfl hdoes hreturned
      · have hfailed : returnCode ≠ .success := fun h => hcount (hcode.mp h)
        rw [if_pos (Or.inl hfailed)]
        obtain ⟨hdoes, hreturned⟩ := does_transient user op hcalls hcontext hstate
          (fun _ => hcount) (hcarries buffer hholds)
        rw [if_neg hcount] at hreturned
        exact .failed hfailed hdoes hreturned

/-! ## The operations -/

/-- The return code says whether the operation has left a buffer for its acknowledgment at the
head of the Tx list, or has left the list alone. -/
def Requested (packetIdentifier : UInt16) (returnCode : MQTTReturnCode)
    (before after : MQTTContext) : Prop :=
  (returnCode = .success → ∃ buffer : MQTTBuffer,
    buffer.bufferState.packetIdentifier = packetIdentifier ∧
      after.txBufferList = buffer :: before.txBufferList) ∧
    (returnCode ≠ .success → after.txBufferList = before.txBufferList)

theorem Requested.unchanged {packetIdentifier : UInt16} {returnCode : MQTTReturnCode}
    {before after : MQTTContext} (hcode : returnCode ≠ .success)
    (h : after.txBufferList = before.txBufferList) :
    Requested packetIdentifier returnCode before after :=
  ⟨fun hsuccess => absurd hsuccess hcode, fun _ => h⟩

theorem Requested.linked {buffer : MQTTBuffer} {before after : MQTTContext}
    (h : after.txBufferList = buffer :: before.txBufferList) :
    Requested buffer.bufferState.packetIdentifier .success before after :=
  ⟨fun _ => ⟨buffer, rfl, h⟩, fun hcode => absurd rfl hcode⟩

theorem does_connect (params : MQTTConnectParams) (s : Session W) :
    Does user (.connect params) s (mqttConnect user params s).2 ∧
      Requested params.packetIdentifier (mqttConnect user params s).1 s.context
        (mqttConnect user params s).2.context := by
  unfold mqttConnect
  cases hstate : s.context.connectionState with
  | connected => exact ⟨.refl s, .unchanged (by simp) rfl⟩
  | connectionInProgress => exact ⟨.refl s, .unchanged (by simp) rfl⟩
  | notConnected =>
      simp only
      generalize hconfigure : (s.update fun context =>
        { context with
          keepAliveActualIntervalTicks := params.keepAliveActualIntervalTicks
          pingRequestTimeoutTicks := params.pingRequestTimeoutTicks }) = configured
      have hconfigured : Does user (.connect params) s configured := by
        subst hconfigure
        exact ((Calls.refl s).update _).does rfl (.configure params rfl hstate)
      have hlist : configured.context.txBufferList = s.context.txBufferList := by
        subst hconfigure
        rfl
      have hidle : configured.context.connectionState = .notConnected := by
        subst hconfigure
        exact hstate
      have houtcome := submit_outcome user params.timeoutTicks params.packetIdentifier
        (.connect params) (fun _ h => h) true (fun _ => rfl) configured
        (Or.inl ⟨trivial, hidle⟩)
      generalize submitPacket user params.remainingLength params.timeoutTicks
        params.packetIdentifier params.write true configured = sent at houtcome ⊢
      cases houtcome with
      | pending buffer t t' _ hholds hcalls hcontext =>
          rw [if_neg (by simp)]
          simp only
          refine ⟨hconfigured.trans ((hcalls.update _).does ?_
            (.connect buffer t t' trivial hidle hholds)), ?_⟩
          · rw [update_context, hcontext]
          · rw [← hholds.identifier]
            refine .linked ?_
            rw [update_context, hcontext, ← hlist]
            rfl
      | failed hcode hdoes hcontext =>
          rw [if_pos hcode]
          exact ⟨hconfigured.trans hdoes, .unchanged hcode (by rw [hcontext, hlist])⟩
      | gone t' hacknowledged => exact absurd hacknowledged (by simp)

/-- A packet submitted on an open connection is one transition. -/
theorem does_submit (op : Op)
    (hcarries : ∀ buffer : MQTTBuffer, buffer.Holds remainingLength packetIdentifier write →
      buffer.Carries op) (hconnects : ¬ op.Connects)
    (acknowledged : Bool) (hawaits : acknowledged = true ↔ op.Awaits) (s : Session W)
    (hstate : s.context.connectionState = .connected) :
    let sent := submitPacket user remainingLength timeoutTicks packetIdentifier write
      acknowledged s
    Does user op s sent.2 ∧
      (acknowledged = true → Requested packetIdentifier sent.1 s.context sent.2.context) ∧
      (acknowledged = false → sent.2.context.txBufferList = s.context.txBufferList) := by
  intro sent
  have houtcome := submit_outcome user timeoutTicks packetIdentifier op hcarries
    acknowledged (fun h => hawaits.mpr (h.resolve_left hconnects)) s (Or.inr ⟨hconnects, hstate⟩)
  change SubmitOutcome user remainingLength packetIdentifier write op acknowledged s sent
    at houtcome
  generalize sent = result at houtcome ⊢
  cases houtcome with
  | pending buffer t t' hacknowledged hholds hcalls hcontext =>
      refine ⟨hcalls.does hcontext (.request buffer t t' (hawaits.mp hacknowledged) hstate
        (hcarries buffer hholds)), ?_, ?_⟩
      · intro _
        rw [← hholds.identifier]
        refine .linked ?_
        rw [hcontext]
        rfl
      · intro h
        exact absurd (hacknowledged.symm.trans h) (by simp)
  | failed hcode hdoes hcontext =>
      exact ⟨hdoes, fun _ => .unchanged hcode (by rw [hcontext]), fun _ => by rw [hcontext]⟩
  | gone t' hacknowledged hdoes hcontext =>
      refine ⟨hdoes, ?_, ?_⟩
      · intro h
        exact absurd (h.symm.trans hacknowledged) (by simp)
      · intro _
        rw [hcontext]
        rfl

theorem does_subscribe (params : MQTTSubscribeParams) (s : Session W) :
    Does user (.subscribe params) s (mqttSubscribe user params s).2 ∧
      Requested params.packetIdentifier (mqttSubscribe user params s).1 s.context
        (mqttSubscribe user params s).2.context := by
  have hremove : ∀ s : Session W,
      Does user (.subscribe params) s
        (s.update (MQTTContext.removeSubscription params.topic.bytes)) :=
    fun s => ((Calls.refl s).update _).does rfl (.remove params rfl)
  unfold mqttSubscribe
  by_cases hstate : s.context.connectionState = .connected
  · rw [if_neg (by simpa using hstate)]
    simp only
    generalize hstore : prvStoreSubscription params.topic.bytes params.publishCallbackContext
      params.publishCallback s.context.subscriptionManager = stored
    generalize hstored : (s.update fun context =>
      { context with subscriptionManager := stored.2 }) = storing
    have hdoes : Does user (.subscribe params) s storing := by
      subst hstored
      subst hstore
      exact ((Calls.refl s).update _).does rfl (.store params rfl hstate)
    have hlist : storing.context.txBufferList = s.context.txBufferList := by
      subst hstored
      rfl
    have hconnected : storing.context.connectionState = .connected := by
      subst hstored
      exact hstate
    obtain ⟨hsubmit, hrequested, -⟩ := does_submit user params.timeoutTicks
      params.packetIdentifier (.subscribe params) (fun _ h => h) id true
      (iff_of_true rfl trivial) storing hconnected
    generalize submitPacket user params.remainingLength params.timeoutTicks
      params.packetIdentifier params.write true storing = sent at hsubmit hrequested ⊢
    split_ifs with hroom hcode
    · refine ⟨(hdoes.trans hsubmit).trans (hremove _), .unchanged hcode ?_⟩
      exact ((hrequested rfl).2 hcode).trans hlist
    · refine ⟨hdoes.trans hsubmit, ?_⟩
      have h := hrequested rfl
      unfold Requested at h ⊢
      rwa [hlist] at h
    · exact ⟨hdoes, .unchanged (by simp) hlist⟩
  · rw [if_pos hstate]
    exact ⟨hremove s, .unchanged (by simp) rfl⟩

theorem does_unsubscribe (params : MQTTUnsubscribeParams) (s : Session W) :
    Does user (.unsubscribe params) s (mqttUnsubscribe user params s).2 ∧
      Requested params.packetIdentifier (mqttUnsubscribe user params s).1 s.context
        (mqttUnsubscribe user params s).2.context := by
  unfold mqttUnsubscribe
  by_cases hstate : s.context.connectionState = .connected
  · rw [if_neg (by simpa using hstate)]
    obtain ⟨hsubmit, hrequested, -⟩ := does_submit user params.timeoutTicks
      params.packetIdentifier (.unsubscribe params) (fun _ h => h) id true
      (iff_of_true rfl trivial) s hstate
    exact ⟨hsubmit, hrequested rfl⟩
  · rw [if_pos hstate]
    exact ⟨.refl s, .unchanged (by simp) rfl⟩

theorem does_mqtt_publish (params : MQTTPublishParams) (s : Session W) :
    Does user (.publish params) s (mqttPublish user params s).2 ∧
      (params.qos ≠ .qos0 → Requested params.packetIdentifier (mqttPublish user params s).1
        s.context (mqttPublish user params s).2.context) ∧
      (params.qos = .qos0 →
        (mqttPublish user params s).2.context.txBufferList = s.context.txBufferList) := by
  unfold mqttPublish
  by_cases hstate : s.context.connectionState = .connected
  · rw [if_neg (by simpa using hstate)]
    obtain ⟨hsubmit, hrequested, hgone⟩ := does_submit user params.timeoutTicks
      params.packetIdentifier (.publish params) (fun _ h => h) id (decide (params.qos ≠ .qos0))
      decide_eq_true_iff s hstate
    exact ⟨hsubmit, fun h => hrequested (decide_eq_true h), fun h => hgone (by simp [h])⟩
  · rw [if_pos hstate]
    exact ⟨.refl s, fun _ => .unchanged (by simp) rfl, fun _ => rfl⟩

theorem does_disconnect (s : Session W) : Does user .disconnect s (mqttDisconnect user s).2 := by
  unfold mqttDisconnect
  by_cases hstate : s.context.connectionState = .connected ∨
      s.context.connectionState = .connectionInProgress
  · rw [if_pos hstate]
    obtain ⟨count, t, hsend, hsent, -⟩ := send_data_spec user disconnectPacket s
    obtain ⟨hevent, hcontext⟩ := invoke_callback_spec user (.clientDisconnected .userRequest)
      (by simp) (prvSendData user disconnectPacket s).2
    obtain ⟨hreset, hresetContext⟩ := reset_context_spec user (prvInvokeCallback user
      (.clientDisconnected .userRequest) (prvSendData user disconnectPacket s).2).2
    have hall := hsend.trans (hevent.trans hreset)
    rw [hcontext, hsent] at hall hresetContext
    have hopen : s.context.connectionState ≠ .notConnected := by
      rcases hstate with h | h
      · simp [h]
      · simp [h]
    have hreturns : (if count = disconnectPacket.length then s.context.restartKeepAlive t
        else s.context).returns = s.context.returns := by
      split_ifs
      · rfl
      · rfl
    rw [hreturns] at hall
    refine hall.does ?_ (.leave count t _ rfl hopen)
    rw [hresetContext]
    split_ifs
    · rfl
    · rfl
  · rw [if_neg hstate]
    obtain ⟨hreset, hcontext⟩ := reset_context_spec user s
    refine hreset.does hcontext (.idle rfl ?_)
    cases h : s.context.connectionState with
    | notConnected => rfl
    | connectionInProgress => exact absurd (Or.inr h) hstate
    | connected => exact absurd (Or.inl h) hstate

theorem does_return_buffer (handle : MQTTBufferHandle) (s : Session W) :
    Does user (.returnBuffer handle) s (mqttReturnBuffer user handle s).2 :=
  (calls_return_buffer handle s).does rfl (.giveBack handle rfl)

/-! ## Periodic -/

/-- A stamped buffer is on the Tx list in place of the one with its handle. -/
theorem mem_store_tx_buffer {buffer stamped : MQTTBuffer} {context : MQTTContext}
    (hmem : buffer ∈ context.txBufferList) (hhandle : stamped.handle = buffer.handle) :
    stamped ∈ (storeTxBuffer stamped context).txBufferList := by
  refine List.mem_map.mpr ⟨buffer, hmem, ?_⟩
  rw [if_pos hhandle.symm]

theorem does_report_timeout (now : UInt64) {buffer : MQTTBuffer}
    (hstate : s.context.connectionState ≠ .notConnected)
    (hmem : buffer ∈ s.context.txBufferList)
    (hconnect : buffer.controlByte ≠ controlCONNECT ||| flagsCONNECT) :
    Does user (.periodic now) s (reportTimeout user buffer s) ∧
      (reportTimeout user buffer s).context.connectionState = s.context.connectionState := by
  unfold reportTimeout
  simp only
  generalize hsettle : (s.update fun context =>
    if buffer.controlByte = controlSUBSCRIBE ||| flagsSUBSCRIBE then
      { context with
        subscriptionManager := prvRemoveSubscriptionForSubscribeOrUnsubscribeBuffer
          buffer context.subscriptionManager }
    else context) = settled
  have hsettled : settled.context = { s.context with
      subscriptionManager := settledManager buffer
        (.timeout buffer.bufferState.packetIdentifier) s.context.subscriptionManager } := by
    subst hsettle
    simp only [update_context, settledManager]
    split_ifs
    · rfl
    · rfl
  obtain ⟨hevent, hcontext⟩ := invoke_callback_spec user
    (.timeout buffer.bufferState.packetIdentifier) (by simp) settled
  have hreturned : (prvReturnBuffer user (some buffer.handle) (prvInvokeCallback user
      (.timeout buffer.bufferState.packetIdentifier) settled).2).context =
      { s.context.unlink buffer.handle with
        subscriptionManager := settledManager buffer
          (.timeout buffer.bufferState.packetIdentifier) s.context.subscriptionManager } := by
    rw [return_buffer_context, hcontext, hsettled]
    rfl
  refine ⟨?_, by rw [hreturned]; rfl⟩
  have hcalls : Calls user s [] settled := by
    subst hsettle
    exact (Calls.refl s).update _
  exact (hcalls.trans (hevent.trans (calls_return_buffer buffer.handle _))).does hreturned
    (.settle buffer _ _ hstate hmem (.timeout now rfl hconnect))

theorem does_periodic_tx_loop (now : UInt64) (handles : List MQTTBufferHandle) (next : UInt32)
    (s : Session W) (hstate : s.context.connectionState = .notConnected →
      s.context.txBufferList = []) :
    Does user (.periodic now) s (periodicTxLoop user now handles next s).1 := by
  induction handles generalizing next s with
  | nil => exact .refl s
  | cons handle rest ih =>
      unfold periodicTxLoop
      cases hfind : s.context.txBufferList.find? fun buffer => buffer.handle == handle with
      | none => exact ih next s hstate
      | some buffer =>
          have hmem := List.mem_of_find?_eq_some hfind
          have hopen : s.context.connectionState ≠ .notConnected := by
            intro h
            rw [hstate h] at hmem
            exact absurd hmem (by simp)
          simp only
          generalize prvIsTimeElapsed buffer.bufferState.recordedTickCount now
            buffer.bufferState.timeoutTicks = time
          have hstamp : Does user (.periodic now) s
              (s.update (storeTxBuffer (buffer.stamp time.2.1 time.2.2))) :=
            ((Calls.refl s).update _).does rfl (.stamp buffer now time.2.1 time.2.2 rfl hmem)
          have hstamped : buffer.stamp time.2.1 time.2.2 ∈ (storeTxBuffer
              (buffer.stamp time.2.1 time.2.2) s.context).txBufferList :=
            mem_store_tx_buffer hmem rfl
          split_ifs with helapsed hconnect
          · exact hstamp.trans (does_drop .connectTimeout rfl hopen)
          · obtain ⟨htimeout, hsame⟩ := does_report_timeout user now
              (s := s.update (storeTxBuffer (buffer.stamp time.2.1 time.2.2))) hopen hstamped
              hconnect
            refine (hstamp.trans htimeout).trans (ih next _ ?_)
            intro h
            exact absurd (hsame.symm.trans h) hopen
          · refine hstamp.trans (ih _ _ ?_)
            intro h
            exact absurd h hopen

/-- PINGREQ is one whole packet. -/
theorem framed_pingreq : Framed pingReqPacket :=
  ⟨controlPINGREQ, [0], [], rfl, ⟨[], 0, rfl, by simp, by decide⟩, by decide, by decide⟩

theorem does_keep_alive_elapsed (now : UInt64)
    (hstate : s.context.connectionState = .connected) :
    Does user (.periodic now) s (keepAliveElapsed user s) := by
  unfold keepAliveElapsed
  by_cases hwaiting : s.context.waitingForPingResp = true
  · rw [if_pos hwaiting]
    obtain ⟨hevent, hcontext⟩ := invoke_callback_spec user .pingTimeout (by simp) s
    exact (hevent.update _).does (by rw [update_context, hcontext])
      (.pingTimedOut now _ rfl hwaiting)
  · rw [if_neg hwaiting]
    obtain ⟨count, t, hsend, hcontext, hcode⟩ := send_data_spec user pingReqPacket s
    simp only
    generalize prvSendData user pingReqPacket s = sent at hsend hcontext hcode ⊢
    by_cases hcount : count = pingReqPacket.length
    · rw [if_pos (hcode.mpr hcount)]
      rw [if_pos hcount] at hcontext
      subst hcount
      obtain ⟨hnow, hnowContext⟩ := get_current_tick_count_spec user sent.2
      refine ((hsend.trans hnow).update _).does ?_
        (.ping now t (prvGetCurrentTickCount user sent.2).1 rfl hstate (by simpa using hwaiting))
      rw [update_context, hnowContext, hcontext]
      rfl
    · rw [if_neg (fun h => hcount (hcode.mp h))]
      rw [if_neg hcount] at hcontext
      refine hsend.does hcontext ?_
      have hopen : s.context.connectionState ≠ .notConnected := by
        rw [hstate]
        decide
      have htransition : Transition user (.periodic now) s.context _ _ :=
        .send pingReqPacket count t (Or.inr ⟨⟨now, rfl⟩, hcount⟩) hopen framed_pingreq
      rwa [if_neg hcount] at htransition

theorem does_periodic (now : UInt64) (s : Session W)
    (hstate : s.context.connectionState = .notConnected → s.context.txBufferList = []) :
    Does user (.periodic now) s (mqttPeriodic user now s).1 := by
  have hloop := does_periodic_tx_loop user now
    (s.context.txBufferList.map MQTTBuffer.handle) (UInt32.ofNat (2 ^ 32 - 1)) s hstate
  unfold mqttPeriodic
  generalize periodicTxLoop user now (s.context.txBufferList.map MQTTBuffer.handle)
    (UInt32.ofNat (2 ^ 32 - 1)) s = looped at hloop ⊢
  simp only
  by_cases hconnected : looped.1.context.connectionState = .connected
  · rw [if_pos hconnected]
    have helapse : Does user (.periodic now) looped.1 (looped.1.update (MQTTContext.elapse now)) :=
      ((Calls.refl looped.1).update _).does rfl (.elapse now rfl hconnected)
    refine (hloop.trans helapse).trans ?_
    simp only
    split_ifs
    · exact does_keep_alive_elapsed user now hconnected
    · exact .refl _
  · rw [if_neg hconnected]
    exact hloop

end TivaAws.Mqtt
