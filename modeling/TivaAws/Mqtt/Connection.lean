import TivaAws.Mqtt.Ownership

/-!
# The connection state, the Tx list and the subscriptions

What the connection state says about the Tx list and the subscription manager. While the connection
is in progress the Tx list is the CONNECT packet; on an open connection it holds requests; without a
connection the context holds nothing. Whenever a connection ends, the user is told exactly once.
-/

namespace TivaAws.Mqtt

open Labelled

variable {W : Type} {user : MQTTInitParams W} {op : Op} {c c' : MQTTContext}
  {labels : List MQTTOutput}

/-! ## Control bytes -/

theorem nibbles_eq (byte : UInt8) :
    (byte &&& topNibbleMask) ||| (byte &&& lowerNibbleMask) = byte := by
  refine UInt8.toBitVec_inj.mp ?_
  show (byte.toBitVec &&& 0xF0#8) ||| (byte.toBitVec &&& 0x0F#8) = byte.toBitVec
  rw [← BitVec.and_or_distrib_left]
  exact BitVec.and_allOnes

/-- CONNECT is known by its control byte. -/
theorem is_connect_iff (buffer : MQTTBuffer) :
    buffer.IsConnect ↔ buffer.controlByte = controlCONNECT ||| flagsCONNECT := by
  refine ⟨?_, ?_⟩
  · rintro ⟨htype, hflags⟩
    rw [← nibbles_eq buffer.controlByte]
    show buffer.packetType ||| buffer.packetFlags = _
    rw [htype, hflags]
  · intro hbyte
    refine ⟨?_, ?_⟩
    · rw [MQTTBuffer.packetType, hbyte]
      decide
    · rw [MQTTBuffer.packetFlags, hbyte]
      decide

/-- The buffer holds SUBSCRIBE, UNSUBSCRIBE or a PUBLISH with QoS 1. -/
def MQTTBuffer.IsRequest (buffer : MQTTBuffer) : Prop :=
  buffer.controlByte = controlSUBSCRIBE ||| flagsSUBSCRIBE ∨
    buffer.controlByte = controlUNSUBSCRIBE ||| flagsUNSUBSCRIBE ∨
    buffer.controlByte = controlPUBLISH ||| (MQTTQoS.qos1.toUInt8 <<< 1)

/-- The buffer holds a PUBLISH with QoS 2. -/
def MQTTBuffer.IsPublishQoS2 (buffer : MQTTBuffer) : Prop :=
  buffer.controlByte = controlPUBLISH ||| (MQTTQoS.qos2.toUInt8 <<< 1)

instance (buffer : MQTTBuffer) : Decidable buffer.IsPublishQoS2 :=
  inferInstanceAs (Decidable (_ = _))

/-- The buffer holds what can wait on an open connection. The assertion of `MQTT_Publish` against
QoS 2 is empty in this build. -/
def MQTTBuffer.IsAwaited (buffer : MQTTBuffer) : Prop :=
  buffer.IsRequest ∨ buffer.IsPublishQoS2

theorem MQTTBuffer.IsAwaited.not_connect {buffer : MQTTBuffer} (h : buffer.IsAwaited) :
    ¬ buffer.IsConnect := by
  rw [is_connect_iff]
  rcases h with (h | h | h) | h
  · rw [h]
    decide
  · rw [h]
    decide
  · rw [h]
    decide
  · unfold MQTTBuffer.IsPublishQoS2 at h
    rw [h]
    decide

theorem MQTTBuffer.IsRequest.not_qos2 {buffer : MQTTBuffer} (h : buffer.IsRequest) :
    ¬ buffer.IsPublishQoS2 := by
  unfold MQTTBuffer.IsPublishQoS2
  rcases h with h | h | h
  · rw [h]
    decide
  · rw [h]
    decide
  · rw [h]
    decide

/-- The operation publishes with a QoS that `MQTT_Publish` asserts. -/
def Op.QoSAsserted : Op → Prop
  | .publish params => params.qos = .qos0 ∨ params.qos = .qos1
  | _ => True

instance : (op : Op) → Decidable op.QoSAsserted
  | .publish params => inferInstanceAs (Decidable (params.qos = .qos0 ∨ params.qos = .qos1))
  | .connect _ | .disconnect | .subscribe _ | .unsubscribe _ | .periodic _
  | .parseReceivedData _ | .returnBuffer _ => isTrue trivial

theorem carries_connect {buffer : MQTTBuffer} (hop : op.Connects) (h : buffer.Carries op) :
    buffer.IsConnect := by
  cases op with
  | connect params =>
      rw [is_connect_iff]
      exact MQTTBuffer.Holds.control_byte h (connect_writes_packet params)
  | disconnect => exact absurd hop id
  | subscribe params => exact absurd hop id
  | unsubscribe params => exact absurd hop id
  | publish params => exact absurd hop id
  | periodic currentTickCount => exact absurd hop id
  | parseReceivedData data => exact absurd hop id
  | returnBuffer handle => exact absurd hop id

theorem carries_awaited {buffer : MQTTBuffer} (hop : op.Awaits) (h : buffer.Carries op) :
    buffer.IsAwaited ∧ (op.QoSAsserted → buffer.IsRequest) := by
  cases op with
  | subscribe params =>
      have hrequest : buffer.IsRequest :=
        Or.inl (MQTTBuffer.Holds.control_byte h (subscribe_writes_packet params))
      exact ⟨Or.inl hrequest, fun _ => hrequest⟩
  | unsubscribe params =>
      have hrequest : buffer.IsRequest :=
        Or.inr (Or.inl (MQTTBuffer.Holds.control_byte h (unsubscribe_writes_packet params)))
      exact ⟨Or.inl hrequest, fun _ => hrequest⟩
  | publish params =>
      have hbyte := MQTTBuffer.Holds.control_byte h (publish_writes_packet params)
      cases hqos : params.qos with
      | qos0 => exact absurd hqos hop
      | qos1 =>
          rw [hqos] at hbyte
          exact ⟨Or.inl (Or.inr (Or.inr hbyte)), fun _ => Or.inr (Or.inr hbyte)⟩
      | qos2 =>
          rw [hqos] at hbyte
          refine ⟨Or.inr hbyte, fun hasserted => ?_⟩
          rw [Op.QoSAsserted, hqos] at hasserted
          rcases hasserted with h | h
          · cases h
          · cases h
  | connect params => exact absurd hop id
  | disconnect => exact absurd hop id
  | periodic currentTickCount => exact absurd hop id
  | parseReceivedData data => exact absurd hop id
  | returnBuffer handle => exact absurd hop id

/-- A packet that waits on an open connection is not CONNECT. -/
theorem carries_not_connect {buffer : MQTTBuffer} (hop : op.Awaits) (h : buffer.Carries op) :
    ¬ buffer.IsConnect := by
  rw [is_connect_iff]
  cases op with
  | subscribe params =>
      rw [MQTTBuffer.Holds.control_byte h (subscribe_writes_packet params)]
      decide
  | unsubscribe params =>
      rw [MQTTBuffer.Holds.control_byte h (unsubscribe_writes_packet params)]
      decide
  | publish params =>
      rw [MQTTBuffer.Holds.control_byte h (publish_writes_packet params)]
      cases params.qos with
      | qos0 => decide
      | qos1 => decide
      | qos2 => decide
  | connect params => exact absurd hop id
  | disconnect => exact absurd hop id
  | periodic currentTickCount => exact absurd hop id
  | parseReceivedData data => exact absurd hop id
  | returnBuffer handle => exact absurd hop id

/-! ## Where CONNECT can be -/

/-- CONNECT is on the Tx list only while the connection is in progress, and then alone. Unlike the
coupling below this needs no assumption on the pool. -/
structure ConnectConfined (context : MQTTContext) : Prop where
  inProgress : context.connectionState = .connectionInProgress → context.txBufferList.length ≤ 1
  connected : context.connectionState = .connected →
    ∀ buffer ∈ context.txBufferList, ¬ buffer.IsConnect

theorem ConnectConfined.of_not_connected (h : c.connectionState = .notConnected) :
    ConnectConfined c := by
  refine ⟨?_, ?_⟩
  · intro hstate
    exact absurd (h.symm.trans hstate) (by decide)
  · intro hstate
    exact absurd (h.symm.trans hstate) (by decide)

/-- Fewer buffers are confined as well. -/
theorem ConnectConfined.sublist {other : MQTTContext} (h : ConnectConfined c)
    (hstate : other.connectionState = c.connectionState)
    (hlist : other.txBufferList.Sublist c.txBufferList) : ConnectConfined other := by
  refine ⟨?_, ?_⟩
  · intro hother
    exact hlist.length_le.trans (h.inProgress (hstate.symm.trans hother))
  · intro hother buffer hmem
    exact h.connected (hstate.symm.trans hother) buffer (hlist.subset hmem)

theorem ConnectConfined.unlink (h : ConnectConfined c) (handle : MQTTBufferHandle) :
    ConnectConfined (c.unlink handle) :=
  h.sublist rfl List.eraseP_sublist

/-- Every transition keeps CONNECT confined. -/
theorem Transition.confined (h : Transition user op c labels c')
    (hreleased : ReleasedWhenDisconnected c) (hinv : ConnectConfined c) : ConnectConfined c' := by
  cases h with
  | quiet => exact hinv
  | configure => exact hinv.sublist rfl (.refl _)
  | connect buffer t t' hconnects hstate =>
      refine ⟨?_, fun hother => MQTTConnectionState.noConfusion hother⟩
      intro _
      show (buffer :: c.txBufferList).length ≤ 1
      rw [(hreleased hstate).txBufferList]
      exact le_refl 1
  | request buffer t t' hawaits hstate hcarries =>
      refine ⟨fun hother => absurd (hstate.symm.trans hother) (by decide), ?_⟩
      intro _ other hmem
      rcases List.mem_cons.mp hmem with rfl | hmem
      · exact carries_not_connect hawaits hcarries
      · exact hinv.connected hstate other hmem
  | transient =>
      split_ifs
      · exact hinv.sublist rfl (.refl _)
      · exact hinv
  | send =>
      split_ifs
      · exact hinv.sublist rfl (.refl _)
      · exact hinv
  | ping => exact hinv.sublist rfl (.refl _)
  | pong => exact hinv.sublist rfl (.refl _)
  | pingTimedOut => exact hinv.sublist rfl (.refl _)
  | elapse => exact hinv.sublist rfl (.refl _)
  | store => exact hinv.sublist rfl (.refl _)
  | remove => exact hinv.sublist rfl (.refl _)
  | stamp buffer now recordedTickCount timeoutTicks hpolls hmem =>
      refine ⟨?_, ?_⟩
      · intro hstate
        simpa [storeTxBuffer] using hinv.inProgress hstate
      · intro hstate other hother
        obtain ⟨before, hbefore, rfl⟩ := List.mem_map.mp hother
        split_ifs
        · exact hinv.connected hstate buffer hmem
        · exact hinv.connected hstate before hbefore
  | settle buffer event result =>
      exact (hinv.unlink buffer.handle).sublist rfl (.refl _)
  | accept buffer result t hreceives hstate hmem hconnect =>
      refine ⟨fun hother => MQTTConnectionState.noConfusion hother, ?_⟩
      intro _ other hother
      cases hcase : c.connectionState with
      | notConnected => exact absurd hcase hstate
      | connected => exact absurd hconnect (hinv.connected hcase buffer hmem)
      | connectionInProgress =>
          -- CONNECT was alone on the Tx list.
          have hlength := hinv.inProgress hcase
          obtain ⟨first, hlist⟩ := List.length_eq_one_iff.mp
            (le_antisymm hlength (List.length_pos_of_mem hmem))
          have hnone : other ∈ [first].eraseP fun other => other.handle == buffer.handle := by
            rw [← hlist]
            exact hother
          rw [hlist, List.mem_singleton] at hmem
          subst hmem
          simp at hnone
  | drop => exact .of_not_connected rfl
  | refuse => exact .of_not_connected rfl
  | leave =>
      split_ifs
      · exact .of_not_connected rfl
      · exact .of_not_connected rfl
  | idle => exact .of_not_connected rfl
  | receive hreceives hstate hframe =>
      rw [hframe]
      exact hinv.sublist rfl (.refl _)
  | obtainRx rxBuffer hreceives hstate hrx hframe =>
      rw [hframe]
      exact hinv.sublist rfl (.refl _)
  | releaseRx rxBuffer => exact (hinv.unlink rxBuffer.handle).sublist rfl (.refl _)
  | takeRx => exact hinv.sublist rfl (.refl _)
  | giveBack handle => exact hinv.unlink handle

/-- An operation keeps CONNECT confined. -/
theorem steps_confined (h : Steps (Transition user op) c labels c')
    (hreleased : ReleasedWhenDisconnected c) (hinv : ConnectConfined c) : ConnectConfined c' := by
  suffices hboth : ReleasedWhenDisconnected c' ∧ ConnectConfined c' from hboth.2
  refine h.preserves (fun c => ReleasedWhenDisconnected c ∧ ConnectConfined c) ?_ ⟨hreleased, hinv⟩
  rintro c labels c' ⟨hreleased, hinv⟩ htransition
  exact ⟨htransition.released hreleased, htransition.confined hreleased hinv⟩

/-- CONNECT is confined in every run. -/
theorem Executes.confined {entry : List (Op × List MQTTOutput)} (hbase : BaseInvariant c)
    (hinv : ConnectConfined c) (h : Executes user c entry c') : ConnectConfined c' := by
  obtain ⟨op, labels, rfl, hsteps⟩ := h.steps hbase
  exact steps_confined hsteps hbase.released hinv

theorem Run.confined {memory : MQTTContext} {history : List (Op × List MQTTOutput)}
    (h : Run user memory history c) : BaseInvariant c ∧ ConnectConfined c := by
  refine Steps.preserves (fun c => BaseInvariant c ∧ ConnectConfined c) ?_ h
    ⟨base_invariant_init memory, .of_not_connected rfl⟩
  rintro c entry c' ⟨hbase, hinv⟩ hexecutes
  exact ⟨hexecutes.base_invariant hbase, hexecutes.confined hbase hinv⟩

/-! ## The coupling -/

/-- What the state of a connection says about the Tx list and the subscriptions. -/
structure Coupled (context : MQTTContext) : Prop where
  inProgress : context.connectionState = .connectionInProgress →
    (∃ buffer, context.txBufferList = [buffer] ∧ buffer.IsConnect) ∧
      ∀ i : Fin _, context.subscriptionManager.subscriptions[i].inUse = false
  connected : context.connectionState = .connected →
    ∀ buffer ∈ context.txBufferList, buffer.IsAwaited

/-- The coupling reads the state, the Tx list and the subscriptions only. -/
theorem Coupled.congr {other : MQTTContext} (h : Coupled c)
    (hstate : other.connectionState = c.connectionState)
    (hlist : other.txBufferList = c.txBufferList)
    (hmanager : other.subscriptionManager = c.subscriptionManager) : Coupled other := by
  refine ⟨?_, ?_⟩
  · rw [hstate, hlist, hmanager]
    exact h.inProgress
  · rw [hstate, hlist]
    exact h.connected

/-- A context without a connection is coupled. -/
theorem Coupled.of_not_connected (h : c.connectionState = .notConnected) : Coupled c := by
  refine ⟨?_, ?_⟩
  · intro hstate
    exact absurd (h.symm.trans hstate) (by decide)
  · intro hstate
    exact absurd (h.symm.trans hstate) (by decide)

/-- A context on whose Tx list every buffer is a request is not in progress. -/
theorem Coupled.of_connected (hstate : c.connectionState = .connected)
    (h : ∀ buffer ∈ c.txBufferList, buffer.IsAwaited) : Coupled c :=
  ⟨fun hother => absurd (hstate.symm.trans hother) (by decide), fun _ => h⟩

/-- On a coupled context CONNECT is alone. -/
theorem Coupled.connect_alone {buffer : MQTTBuffer} (h : Coupled c)
    (hstate : c.connectionState ≠ .notConnected) (hmem : buffer ∈ c.txBufferList)
    (hconnect : buffer.IsConnect) :
    c.connectionState = .connectionInProgress ∧ c.txBufferList = [buffer] := by
  cases hcase : c.connectionState with
  | notConnected => exact absurd hcase hstate
  | connectionInProgress =>
      obtain ⟨⟨connect, hlist, -⟩, -⟩ := h.inProgress hcase
      rw [hlist, List.mem_singleton] at hmem
      exact ⟨rfl, hmem ▸ hlist⟩
  | connected => exact absurd hconnect (h.connected hcase buffer hmem).not_connect

/-- Only a request can be settled. -/
theorem Coupled.settles_connected {buffer : MQTTBuffer} {event : MQTTEvent} (h : Coupled c)
    (hstate : c.connectionState ≠ .notConnected) (hmem : buffer ∈ c.txBufferList)
    (hsettles : Settles op buffer event) : c.connectionState = .connected := by
  cases hcase : c.connectionState with
  | notConnected => exact absurd hcase hstate
  | connected => rfl
  | connectionInProgress =>
      obtain ⟨⟨connect, hlist, hconnect⟩, -⟩ := h.inProgress hcase
      rw [hlist, List.mem_singleton] at hmem
      subst hmem
      cases hsettles with
      | subACK returnCode hop htype => exact absurd (hconnect.1.symm.trans htype) (by decide)
      | unSubACK hop htype => exact absurd (hconnect.1.symm.trans htype) (by decide)
      | pubACK hop htype => exact absurd (hconnect.1.symm.trans htype) (by decide)
      | timeout now hop hbyte => exact absurd ((is_connect_iff _).mp hconnect) hbyte

/-- Removing a subscription matters on an open connection only. -/
theorem Coupled.remove (h : Coupled c) (topic : List UInt8) :
    Coupled (c.removeSubscription topic) := by
  refine ⟨?_, h.connected⟩
  intro hstate
  obtain ⟨hlist, hunused⟩ := h.inProgress hstate
  refine ⟨hlist, ?_⟩
  rw [MQTTContext.removeSubscription, remove_subscription_unused hunused]
  exact hunused

/-- Stamping a buffer keeps every packet. -/
theorem Coupled.stamp {buffer : MQTTBuffer} (h : Coupled c) (hmem : buffer ∈ c.txBufferList)
    (recordedTickCount : UInt64) (timeoutTicks : UInt32) :
    Coupled (storeTxBuffer (buffer.stamp recordedTickCount timeoutTicks) c) := by
  refine ⟨?_, ?_⟩
  · intro hstate
    obtain ⟨⟨connect, hlist, hconnect⟩, hunused⟩ := h.inProgress hstate
    rw [hlist, List.mem_singleton] at hmem
    subst hmem
    refine ⟨⟨buffer.stamp recordedTickCount timeoutTicks, ?_, hconnect⟩, hunused⟩
    simp [storeTxBuffer, hlist, MQTTBuffer.stamp]
  · intro hstate other hother
    obtain ⟨before, hbefore, rfl⟩ := List.mem_map.mp hother
    split_ifs
    · exact h.connected hstate buffer hmem
    · exact h.connected hstate before hbefore

/-- Every transition between different places keeps the coupling. -/
theorem Transition.coupled (h : Transition user op c labels c')
    (hop : ∀ handle, op ≠ .returnBuffer handle) (hreleased : ReleasedWhenDisconnected c)
    (hnodup : c.places.Nodup) (hinv : Coupled c) : Coupled c' := by
  cases h with
  | quiet => exact hinv
  | configure => exact hinv.congr rfl rfl rfl
  | connect buffer t t' hconnects hstate hcarries =>
      refine ⟨?_, fun hother => MQTTConnectionState.noConfusion hother⟩
      intro _
      refine ⟨⟨buffer, ?_, carries_connect hconnects hcarries⟩, (hreleased hstate).unused⟩
      show buffer :: c.txBufferList = [buffer]
      rw [(hreleased hstate).txBufferList]
  | request buffer t t' hawaits hstate hcarries =>
      refine .of_connected hstate ?_
      intro other hmem
      rcases List.mem_cons.mp hmem with rfl | hmem
      · exact (carries_awaited hawaits hcarries).1
      · exact hinv.connected hstate other hmem
  | transient =>
      split_ifs
      · exact hinv.congr rfl rfl rfl
      · exact hinv
  | send =>
      split_ifs
      · exact hinv.congr rfl rfl rfl
      · exact hinv
  | ping => exact hinv.congr rfl rfl rfl
  | pong => exact hinv.congr rfl rfl rfl
  | pingTimedOut => exact hinv.congr rfl rfl rfl
  | elapse => exact hinv.congr rfl rfl rfl
  | store params hsubscribe hstate => exact .of_connected hstate (hinv.connected hstate)
  | remove params => exact hinv.remove params.topic.bytes
  | stamp buffer now recordedTickCount timeoutTicks hpolls hmem =>
      exact hinv.stamp hmem recordedTickCount timeoutTicks
  | settle buffer event result hstate hmem hsettles =>
      have hconnected := hinv.settles_connected hstate hmem hsettles
      refine .of_connected hconnected ?_
      intro other hother
      exact hinv.connected hconnected other (List.eraseP_subset hother)
  | accept buffer result t hreceives hstate hmem hconnect =>
      obtain ⟨-, hlist⟩ := hinv.connect_alone hstate hmem hconnect
      refine .of_connected rfl ?_
      intro other hother
      have hnone : other ∈ [buffer].eraseP fun other => other.handle == buffer.handle := by
        rw [← hlist]
        exact hother
      simp at hnone
  | drop => exact .of_not_connected rfl
  | refuse => exact .of_not_connected rfl
  | leave =>
      split_ifs
      · exact .of_not_connected rfl
      · exact .of_not_connected rfl
  | idle => exact .of_not_connected rfl
  | receive hreceives hstate hframe =>
      rw [hframe]
      exact hinv.congr rfl rfl rfl
  | obtainRx rxBuffer hreceives hstate hrx hframe =>
      rw [hframe]
      exact hinv.congr rfl rfl rfl
  | releaseRx rxBuffer hreceives hstate hrx =>
      rw [places_rx_some hrx] at hnodup
      rw [unlink_of_not_mem fun hmem =>
        (List.nodup_append.mp hnodup).2.2 _ hmem _ List.mem_cons_self rfl]
      exact hinv.congr rfl rfl rfl
  | takeRx => exact hinv.congr rfl rfl rfl
  | giveBack handle hgive => exact absurd hgive (hop handle)

/-- No PUBLISH with QoS 2 is on the Tx list. -/
def WithoutQoS2 (context : MQTTContext) : Prop :=
  ∀ buffer ∈ context.txBufferList, ¬ buffer.IsPublishQoS2

theorem WithoutQoS2.of_nil (h : c.txBufferList = []) : WithoutQoS2 c := by
  intro buffer hmem
  rw [h] at hmem
  exact absurd hmem List.not_mem_nil

theorem WithoutQoS2.sublist {other : MQTTContext} (h : WithoutQoS2 c)
    (hlist : other.txBufferList.Sublist c.txBufferList) : WithoutQoS2 other :=
  fun buffer hmem => h buffer (hlist.subset hmem)

/-- Operations with a QoS that `MQTT_Publish` asserts put no PUBLISH with QoS 2 on the Tx list. -/
theorem Transition.without_qos2 (h : Transition user op c labels c') (hqos : op.QoSAsserted)
    (hinv : WithoutQoS2 c) : WithoutQoS2 c' := by
  cases h with
  | quiet => exact hinv
  | configure => exact hinv
  | connect buffer t t' hconnects hstate hcarries =>
      intro other hmem
      rcases List.mem_cons.mp hmem with rfl | hmem
      · intro hqos2
        have hbyte := (is_connect_iff _).mp (carries_connect hconnects hcarries)
        rw [MQTTBuffer.IsPublishQoS2, hbyte] at hqos2
        exact absurd hqos2 (by decide)
      · exact hinv other hmem
  | request buffer t t' hawaits hstate hcarries =>
      intro other hmem
      rcases List.mem_cons.mp hmem with rfl | hmem
      · exact ((carries_awaited hawaits hcarries).2 hqos).not_qos2
      · exact hinv other hmem
  | transient =>
      split_ifs
      · exact hinv
      · exact hinv
  | send =>
      split_ifs
      · exact hinv
      · exact hinv
  | ping => exact hinv
  | pong => exact hinv
  | pingTimedOut => exact hinv
  | elapse => exact hinv
  | store => exact hinv
  | remove => exact hinv
  | stamp buffer now recordedTickCount timeoutTicks hpolls hmem =>
      intro other hother
      obtain ⟨before, hbefore, rfl⟩ := List.mem_map.mp hother
      split_ifs
      · exact hinv buffer hmem
      · exact hinv before hbefore
  | settle => exact hinv.sublist List.eraseP_sublist
  | accept => exact hinv.sublist List.eraseP_sublist
  | drop => exact .of_nil rfl
  | refuse => exact .of_nil rfl
  | leave =>
      split_ifs
      · exact .of_nil rfl
      · exact .of_nil rfl
  | idle => exact .of_nil rfl
  | receive hreceives hstate hframe =>
      rw [hframe]
      exact hinv
  | obtainRx rxBuffer hreceives hstate hrx hframe =>
      rw [hframe]
      exact hinv
  | releaseRx => exact hinv.sublist List.eraseP_sublist
  | takeRx => exact hinv
  | giveBack => exact hinv.sublist List.eraseP_sublist

/-! ## Reports of a disconnect -/

/-- The output tells the user that the connection has ended. -/
def MQTTOutput.isDisconnect : MQTTOutput → Bool
  | .event (.clientDisconnected _) | .eventCallback (.clientDisconnected _) _ => true
  | _ => false

/-- The reports of a disconnect among outputs. -/
def disconnects (outputs : List MQTTOutput) : List MQTTOutput :=
  outputs.filter MQTTOutput.isDisconnect

@[simp] theorem disconnects_nil : disconnects [] = [] := rfl

@[simp] theorem disconnects_append (first second : List MQTTOutput) :
    disconnects (first ++ second) = disconnects first ++ disconnects second :=
  List.filter_append ..

@[simp] theorem disconnects_obtained (handle : MQTTBufferHandle) (rest : List MQTTOutput) :
    disconnects (.obtained handle :: rest) = disconnects rest := rfl

@[simp] theorem disconnects_returned (handle : MQTTBufferHandle) (rest : List MQTTOutput) :
    disconnects (.returned handle :: rest) = disconnects rest := rfl

@[simp] theorem disconnects_access (offset count : Nat) (rest : List MQTTOutput) :
    disconnects (.access offset count :: rest) = disconnects rest := rfl

@[simp] theorem disconnects_handled (packet : List UInt8) (rest : List MQTTOutput) :
    disconnects (.handled packet :: rest) = disconnects rest := rfl

theorem disconnects_quiet {output : MQTTOutput} (h : output.IsQuiet) :
    disconnects [output] = [] := by
  cases output with
  | event reported =>
      cases reported with
      | clientDisconnected => exact absurd h id
      | _ => rfl
  | eventCallback reported result =>
      cases reported with
      | clientDisconnected => exact absurd h id
      | _ => rfl
  | _ => rfl

@[simp] theorem disconnects_clock (tickCount : UInt64) :
    disconnects (user.clock tickCount) = [] := by
  unfold MQTTInitParams.clock
  split_ifs
  · rfl
  · rfl

@[simp] theorem disconnects_transmitted (data : List UInt8) (count : Nat) (tickCount : UInt64) :
    disconnects (user.transmitted data count tickCount) = [] := by
  unfold MQTTInitParams.transmitted
  show disconnects (if _ then _ else _) = []
  split_ifs
  · exact disconnects_clock tickCount
  · rfl

@[simp] theorem disconnects_returns (context : MQTTContext) : disconnects context.returns = [] := by
  unfold MQTTContext.returns disconnects
  rw [List.filter_append, List.filter_map, List.filter_map]
  have hnone : ∀ handle, (MQTTOutput.returned handle).isDisconnect = false := fun _ => rfl
  simp [Function.comp_def, hnone]

/-- Reporting a disconnect is the one report. -/
@[simp] theorem disconnects_reported_disconnected (reason : MQTTDisconnectReason) (result : Bool) :
    disconnects (user.reported (.clientDisconnected reason) result) =
      user.reported (.clientDisconnected reason) result := by
  unfold MQTTInitParams.reported
  split_ifs
  · rfl
  · rfl

/-- Reporting another event is no report of a disconnect. -/
theorem disconnects_reported {event : MQTTEvent} (h : ∀ reason, event ≠ .clientDisconnected reason)
    (result : Bool) : disconnects (user.reported event result) = [] := by
  unfold MQTTInitParams.reported
  cases event with
  | clientDisconnected reason => exact absurd rfl (h reason)
  | _ =>
      split_ifs
      · rfl
      · rfl

/-- Outputs that report one disconnect. -/
def ReportsDisconnect (user : MQTTInitParams W) (outputs : List MQTTOutput) : Prop :=
  ∃ reason result, disconnects outputs = user.reported (.clientDisconnected reason) result

/-- A transition leaves the connection as it is and reports nothing, or MQTT_Connect begins a
connection, or another operation ends it and reports that once. -/
inductive ConnectionChange (user : MQTTInitParams W) (op : Op) (c : MQTTContext)
    (labels : List MQTTOutput) (c' : MQTTContext) : Prop where
  | same : (c'.connectionState = .notConnected ↔ c.connectionState = .notConnected) →
      disconnects labels = [] → ConnectionChange user op c labels c'
  | opened : op.Connects → c'.connectionState ≠ .notConnected → disconnects labels = [] →
      ConnectionChange user op c labels c'
  | closed : ¬ op.Connects → c.connectionState ≠ .notConnected →
      c'.connectionState = .notConnected → ReportsDisconnect user labels →
      ConnectionChange user op c labels c'

theorem Transition.connection_change (h : Transition user op c labels c') :
    ConnectionChange user op c labels c' := by
  cases h with
  | quiet hquiet => exact .same Iff.rfl (disconnects_quiet hquiet)
  | configure => exact .same Iff.rfl rfl
  | connect buffer t t' hconnects =>
      exact .opened hconnects (fun hidle => MQTTConnectionState.noConfusion hidle) (by simp)
  | request buffer t t' hawaits hstate => exact .same Iff.rfl (by simp)
  | transient =>
      refine .same ?_ (by simp)
      split_ifs
      · exact Iff.rfl
      · exact Iff.rfl
  | send =>
      refine .same ?_ (by simp)
      split_ifs
      · exact Iff.rfl
      · exact Iff.rfl
  | ping => exact .same Iff.rfl (by simp)
  | pong => exact .same Iff.rfl (by simp)
  | pingTimedOut => exact .same Iff.rfl (disconnects_reported (by simp) _)
  | elapse => exact .same Iff.rfl rfl
  | store => exact .same Iff.rfl rfl
  | remove => exact .same Iff.rfl rfl
  | stamp => exact .same Iff.rfl rfl
  | settle buffer event result hstate hmem hsettles =>
      have hevent : ∀ reason, event ≠ .clientDisconnected reason := by
        cases hsettles <;> simp
      refine .same Iff.rfl ?_
      rw [disconnects_append, disconnects_reported hevent]
      rfl
  | accept buffer result t hreceives hstate =>
      refine .same (iff_of_false (fun hidle => MQTTConnectionState.noConfusion hidle) hstate) ?_
      rw [disconnects_append, disconnects_reported (by simp), disconnects_returned,
        disconnects_clock]
      rfl
  | drop reason result hdrops hstate =>
      exact .closed hdrops.not_connects hstate rfl ⟨reason, result, by simp⟩
  | refuse buffer reason result notices hreceives hstate hmem hconnect hnotices =>
      have hquiet : disconnects notices = [] := by
        rcases hnotices with rfl | ⟨returnCode, result', -, rfl⟩
        · rfl
        · exact disconnects_reported (by simp) result'
      exact .closed hreceives.not_connects hstate rfl ⟨reason, result, by simp [hquiet]⟩
  | leave count t result hleave hstate =>
      refine .closed (by rw [hleave]; exact id) hstate ?_ ⟨.userRequest, result, by simp⟩
      split_ifs
      · rfl
      · rfl
  | idle hleave hstate => exact .same (iff_of_true rfl hstate) (by simp)
  | receive hreceives hstate hframe =>
      rw [hframe]
      exact .same Iff.rfl rfl
  | obtainRx rxBuffer hreceives hstate hrx hframe =>
      rw [hframe]
      exact .same Iff.rfl rfl
  | releaseRx => exact .same Iff.rfl rfl
  | takeRx => exact .same Iff.rfl rfl
  | giveBack => exact .same Iff.rfl rfl

/-- An operation other than MQTT_Connect changes nothing about a closed connection. -/
theorem steps_stay_closed (h : Steps (Transition user op) c labels c') (hop : ¬ op.Connects)
    (hstate : c.connectionState = .notConnected) :
    c'.connectionState = .notConnected ∧ disconnects labels = [] := by
  induction h with
  | refl => exact ⟨hstate, rfl⟩
  | cons htransition _ ih =>
      rw [disconnects_append]
      cases htransition.connection_change with
      | same hsame hquiet =>
          rw [hquiet]
          exact ih (hsame.mpr hstate)
      | opened hconnects => exact absurd hconnects hop
      | closed _ hopen => exact absurd hstate hopen

/-- An operation leaves the connection open or closed as it is and reports nothing, or MQTT_Connect
begins a connection, or another operation ends it and reports that once. -/
theorem steps_connection_change (h : Steps (Transition user op) c labels c') :
    ConnectionChange user op c labels c' := by
  induction h with
  | refl => exact .same Iff.rfl rfl
  | @cons start middle finish first rest htransition hrest ih =>
      cases htransition.connection_change with
      | same hsame hquiet =>
          cases ih with
          | same hsame' hquiet' =>
              exact .same (hsame'.trans hsame) (by rw [disconnects_append, hquiet, hquiet']; rfl)
          | opened hconnects hopen hquiet' =>
              exact .opened hconnects hopen (by rw [disconnects_append, hquiet, hquiet']; rfl)
          | closed hop hopen hclosed hreports =>
              refine .closed hop (fun hidle => hopen (hsame.mpr hidle)) hclosed ?_
              rw [ReportsDisconnect, disconnects_append, hquiet]
              exact hreports
      | opened hconnects hopen hquiet =>
          cases ih with
          | same hsame' hquiet' =>
              exact .opened hconnects (fun hidle => hopen (hsame'.mp hidle))
                (by rw [disconnects_append, hquiet, hquiet']; rfl)
          | opened _ hopen' hquiet' =>
              exact .opened hconnects hopen' (by rw [disconnects_append, hquiet, hquiet']; rfl)
          | closed hop => exact absurd hconnects hop
      | closed hop hopen hclosed hreports =>
          obtain ⟨hclosed', hquiet'⟩ := steps_stay_closed hrest hop hclosed
          refine .closed hop hopen hclosed' ?_
          rw [ReportsDisconnect, disconnects_append, hquiet', List.append_nil]
          exact hreports

/-! ## The connection in every run -/

/-- In every run with an honest pool and a user that returns what it was lent, a context without a
connection holds nothing, a connection is in progress exactly when the Tx list is one CONNECT
packet, and an open connection has only requests on the Tx list, PUBLISH with QoS 2 among them if
`MQTT_Publish` is called with it. Every operation that ends a connection reports that exactly once,
and no other operation reports it. -/
theorem connection_coupled (user : MQTTInitParams W) (memory : MQTTContext)
    {history : List (Op × List MQTTOutput)} {c : MQTTContext} (h : Run user memory history c)
    (hdisciplined : Guarded recordEntry Disciplined .empty history) :
    (c.connectionState = .notConnected → c.txBufferList = [] ∧ c.rxBuffer = none ∧
      ∀ i : Fin _, c.subscriptionManager.subscriptions[i].inUse = false) ∧
    (c.connectionState = .connectionInProgress ↔
      ∃ buffer, c.txBufferList = [buffer] ∧ buffer.IsConnect) ∧
    (c.connectionState = .connectionInProgress →
      ∀ i : Fin _, c.subscriptionManager.subscriptions[i].inUse = false) ∧
    (c.connectionState = .connected → ∀ buffer ∈ c.txBufferList,
      ¬ buffer.IsConnect ∧ (buffer.IsRequest ∨ buffer.IsPublishQoS2)) ∧
    (c.connectionState = .connected → (∀ entry ∈ history, entry.1.QoSAsserted) →
      ∀ buffer ∈ c.txBufferList, ¬ buffer.IsConnect ∧ buffer.IsRequest) ∧
    ∀ op outputs c', Executes user c [(op, outputs)] c' →
      if c.connectionState ≠ .notConnected ∧ c'.connectionState = .notConnected then
        ReportsDisconnect user outputs
      else disconnects outputs = [] := by
  have hbase := h.base_invariant
  have hcoupled : Coupled c := h.preserves
    (fun (_ : True) hreleased hnodup hinv hop htransition =>
      htransition.coupled hop hreleased hnodup hinv)
    hdisciplined (fun _ _ => trivial) (.of_not_connected rfl)
  refine ⟨?_, ⟨?_, ?_⟩, fun hstate => (hcoupled.inProgress hstate).2, ?_, ?_, ?_⟩
  · intro hidle
    obtain ⟨hlist, ⟨-, -, hrx⟩, hunused⟩ := hbase.released hidle
    exact ⟨hlist, hrx, hunused⟩
  · exact fun hstate => (hcoupled.inProgress hstate).1
  · rintro ⟨buffer, hlist, hconnect⟩
    have hmem : buffer ∈ c.txBufferList := hlist ▸ List.mem_singleton_self buffer
    refine (hcoupled.connect_alone ?_ hmem hconnect).1
    intro hidle
    rw [(hbase.released hidle).txBufferList] at hmem
    exact absurd hmem List.not_mem_nil
  · intro hstate buffer hmem
    have hawaited := hcoupled.connected hstate buffer hmem
    exact ⟨hawaited.not_connect, hawaited⟩
  · intro hstate hqos buffer hmem
    have hawaited := hcoupled.connected hstate buffer hmem
    have hwithout : WithoutQoS2 c := h.preserves
      (fun hqos _ _ hinv _ htransition => htransition.without_qos2 hqos hinv)
      hdisciplined hqos (.of_nil rfl)
    exact ⟨hawaited.not_connect, hawaited.resolve_right (hwithout buffer hmem)⟩
  · intro op outputs c' hexecutes
    obtain ⟨op', labels, hentry, hsteps⟩ := hexecutes.steps hbase
    cases hentry
    cases steps_connection_change hsteps with
    | same hsame hquiet =>
        rw [if_neg fun hends => hends.1 (hsame.mp hends.2)]
        exact hquiet
    | opened hconnects hopen hquiet =>
        rw [if_neg fun hends => hopen hends.2]
        exact hquiet
    | closed hop hopen hclosed hreports =>
        rw [if_pos ⟨hopen, hclosed⟩]
        exact hreports

/-- A connection with an unanswered request. -/
def openConnection : List (Bench × Op) :=
  [(⟨1, 10, 100, false⟩, .connect benchConnect),
    (⟨2, 11, 100, false⟩, .parseReceivedData acceptingConnACK),
    (⟨1, 12, 100, false⟩, .unsubscribe benchUnsubscribe)]

theorem connection_coupled_open :
    ∃ history c, Run benchUser blankContext history c ∧ c.connectionState = .connected ∧
      c.txBufferList ≠ [] ∧ ∀ buffer ∈ c.txBufferList, ¬ buffer.IsConnect ∧ buffer.IsRequest := by
  have hrun : Run benchUser blankContext _ _ :=
    run_of_replayed (show (replay benchUser openConnection _).isSome from rfl)
  refine ⟨_, _, hrun, by decide +kernel, by decide +kernel, ?_⟩
  exact (connection_coupled benchUser blankContext hrun (by decide +kernel)).2.2.2.2.1
    (by decide +kernel) (by decide +kernel)

/-- A connection on which a message is published with QoS 2. -/
def publishedQoS2 : List (Bench × Op) :=
  [(⟨1, 10, 100, false⟩, .connect benchConnect),
    (⟨2, 11, 100, false⟩, .parseReceivedData acceptingConnACK),
    (⟨1, 12, 100, false⟩, .publish { benchPublish with qos := .qos2 })]

/-- The PUBLISH with QoS 2 waits on the Tx list, which has not only SUBSCRIBE, UNSUBSCRIBE and
PUBLISH with QoS 1 then. -/
theorem publish_qos2_waits :
    ∃ history c, Run benchUser blankContext history c ∧
      Guarded recordEntry Disciplined .empty history ∧ c.connectionState = .connected ∧
      ¬ ∀ buffer ∈ c.txBufferList, buffer.IsRequest := by
  have hrun : Run benchUser blankContext _ _ :=
    run_of_replayed (show (replay benchUser publishedQoS2 _).isSome from rfl)
  refine ⟨_, _, hrun, by decide +kernel, by decide +kernel, fun hall => ?_⟩
  have hwaits :
      ∃ buffer ∈ (replayed benchUser publishedQoS2 (mqttInit blankContext)).2.txBufferList,
        MQTTBuffer.IsPublishQoS2 buffer := by decide +kernel
  obtain ⟨buffer, hmem, hqos2⟩ := hwaits
  exact (hall buffer hmem).not_qos2 hqos2

end TivaAws.Mqtt
