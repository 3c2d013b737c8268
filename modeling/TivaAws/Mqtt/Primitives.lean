import TivaAws.Mqtt.Transition

/-!
# What the primitives do

One lemma for each primitive: the outputs it emits and the context it leaves. Handlers and
operations are put together from these, so no later proof unfolds a primitive.
-/

namespace TivaAws.Mqtt

open Labelled

variable {W : Type} {user : MQTTInitParams W} {op : Op} {s : Session W}

namespace Session

@[simp] theorem emit_context (output : MQTTOutput) : (s.emit output).context = s.context := rfl

@[simp] theorem update_context (change : MQTTContext → MQTTContext) :
    (s.update change).context = change s.context := rfl

@[simp] theorem update_world (change : MQTTContext → MQTTContext) :
    (s.update change).world = s.world := rfl

@[simp] theorem update_outputs (change : MQTTContext → MQTTContext) :
    (s.update change).outputs = s.outputs := rfl

/-- Emitting an output after the call that it records. -/
theorem calls_emit {output : MQTTOutput} {w : W} (h : Responds user s.world output w) :
    Calls user s [output] (emit output { s with world := w }) :=
  ⟨rfl, .cons h (.nil _)⟩

/-- A quiet output that records no call. -/
theorem does_emit {output : MQTTOutput} (hquiet : output.IsQuiet)
    (h : Responds user s.world output s.world) : Does user op s (s.emit output) :=
  (calls_emit h).does rfl (.quiet hquiet)

theorem calls_access (offset count : Nat) :
    Calls user s [.access offset count] (s.emit (.access offset count)) :=
  ⟨rfl, .cons rfl (.nil _)⟩

theorem calls_handled (packet : List UInt8) :
    Calls user s [.handled packet] (s.emit (.handled packet)) :=
  ⟨rfl, .cons rfl (.nil _)⟩

/-- The bytes of a packet are read or handed on. -/
theorem does_access (offset count : Nat) : Does user op s (s.emit (.access offset count)) :=
  does_emit trivial rfl

/-- A whole packet reaches its handler. -/
theorem does_handled (packet : List UInt8) : Does user op s (s.emit (.handled packet)) :=
  does_emit trivial rfl

end Session

open Session

/-! ## Buffers -/

theorem calls_return_buffer (handle : MQTTBufferHandle) (s : Session W) :
    Calls user s [.returned handle] (prvReturnBuffer user (some handle) s) :=
  ⟨rfl, .cons rfl (.nil _)⟩

@[simp] theorem return_buffer_context (handle : MQTTBufferHandle) (s : Session W) :
    (prvReturnBuffer user (some handle) s).context = s.context.unlink handle := rfl

@[simp] theorem return_buffer_none (s : Session W) : prvReturnBuffer user none s = s := rfl

/-- A refused request changes nothing but the world. -/
theorem get_free_buffer_none (op : Op) {length : Nat}
    (h : (prvGetFreeBuffer user length s).1 = none) :
    Does user op s (prvGetFreeBuffer user length s).2 ∧
      (prvGetFreeBuffer user length s).2.context = s.context := by
  unfold prvGetFreeBuffer at h ⊢
  generalize hrequested : (length + sizeofMQTTBufferMetadata) % 2 ^ 32 = requested at h ⊢
  cases hanswer : user.getBuffer requested s.world with
  | mk answer w =>
      cases answer with
      | some buffer => simp [hanswer] at h
      | none =>
          simp only [hanswer]
          have hcalls : Calls user s [.refused requested] _ := calls_emit hanswer
          exact ⟨hcalls.does rfl (.quiet trivial), rfl⟩

/-- A granted request leaves an empty buffer with room for the requested length. -/
theorem get_free_buffer_some {length : Nat} {buffer : MQTTBuffer}
    (h : (prvGetFreeBuffer user length s).1 = some buffer) :
    Calls user s [.obtained buffer.handle] (prvGetFreeBuffer user length s).2 ∧
      (prvGetFreeBuffer user length s).2.context = s.context ∧
      (length + sizeofMQTTBufferMetadata < 2 ^ 32 → length ≤ buffer.effectiveLength) := by
  unfold prvGetFreeBuffer at h ⊢
  generalize hrequested : (length + sizeofMQTTBufferMetadata) % 2 ^ 32 = requested at h ⊢
  cases hanswer : user.getBuffer requested s.world with
  | mk answer w =>
      cases answer with
      | none => simp [hanswer] at h
      | some granted =>
          simp only [hanswer, Option.some.injEq] at h
          subst h
          simp only [hanswer]
          have hcalls : Calls user s [.obtained granted.handle] _ :=
            calls_emit ⟨requested, granted, hanswer, rfl⟩
          refine ⟨hcalls, rfl, ?_⟩
          intro hlength
          have hroom := granted.requested_le
          rw [Nat.mod_eq_of_lt hlength] at hrequested
          simp only [MQTTBuffer.effectiveLength, PoolBuffer.init]
          omega

/-! ## Clock, sending and events -/

variable (user op)

theorem get_current_tick_count_spec (s : Session W) :
    Calls user s (user.clock (prvGetCurrentTickCount user s).1)
        (prvGetCurrentTickCount user s).2 ∧
      (prvGetCurrentTickCount user s).2.context = s.context := by
  unfold prvGetCurrentTickCount MQTTInitParams.clock
  cases hticks : user.getTicks with
  | none => exact ⟨.refl s, rfl⟩
  | some getTicks => exact ⟨calls_emit ⟨getTicks, hticks, rfl⟩, rfl⟩

/-- All of a packet is accepted and the keep-alive timer restarts, or the send fails. -/
theorem send_data_spec (data : List UInt8) (s : Session W) :
    ∃ count t, Calls user s (user.transmitted data count t) (prvSendData user data s).2 ∧
      (prvSendData user data s).2.context =
        (if count = data.length then s.context.restartKeepAlive t else s.context) ∧
      ((prvSendData user data s).1 = .success ↔ count = data.length) := by
  unfold prvSendData MQTTInitParams.transmitted
  cases hanswer : user.send data s.world with
  | mk count w =>
      have hsent : Calls user s [.sent data count]
          (emit (.sent data count) { s with world := w }) := calls_emit hanswer
      generalize hs' : emit (.sent data count) { s with world := w } = s' at hsent
      obtain ⟨hnow, hcontext⟩ := get_current_tick_count_spec user s'
      have hsame : s'.context = s.context := by rw [← hs']; rfl
      by_cases hcount : count = data.length
      · refine ⟨count, (prvGetCurrentTickCount user s').1, ?_, ?_, ?_⟩
        · simp only [if_pos hcount, hs']
          exact (hsent.trans hnow).update _
        · simp only [if_pos hcount, hs', update_context, hcontext, hsame]
        · simp [hcount]
      · refine ⟨count, 0, ?_, ?_, ?_⟩
        · simpa only [if_neg hcount, hs'] using hsent
        · simp only [if_neg hcount, hs', hsame]
        · simp [hcount]

theorem invoke_event_callback_spec (event : MQTTEvent) (s : Session W) :
    Calls user s
        (if user.callback.isSome then
          [.eventCallback event (invokeEventCallback user event s).1] else [])
        (invokeEventCallback user event s).2 ∧
      (invokeEventCallback user event s).2.context = s.context := by
  unfold invokeEventCallback
  cases hcallback : user.callback with
  | none => exact ⟨.refl s, rfl⟩
  | some callback => exact ⟨calls_emit ⟨callback, hcallback, rfl⟩, rfl⟩

/-- An event other than a publish goes to the generic callback. -/
theorem invoke_callback_spec (event : MQTTEvent) (hevent : ∀ publish, event ≠ .publish publish)
    (s : Session W) :
    Calls user s (user.reported event (prvInvokeCallback user event s).1)
        (prvInvokeCallback user event s).2 ∧
      (prvInvokeCallback user event s).2.context = s.context := by
  have hemit : Calls user s [.event event] (s.emit (.event event)) := calls_emit rfl
  have hcallback := invoke_event_callback_spec user event (s.emit (.event event))
  have hunfold : prvInvokeCallback user event s =
      invokeEventCallback user event (s.emit (.event event)) := by
    cases event with
    | publish publish => exact absurd rfl (hevent publish)
    | _ => rfl
  rw [hunfold]
  exact ⟨hemit.trans hcallback.1, hcallback.2⟩

/-- A notice other than a publish changes nothing but the world. -/
theorem invoke_callback_notice (event : MQTTEvent) (hnotice : event.IsNotice)
    (hevent : ∀ publish, event ≠ .publish publish) (s : Session W) :
    Does user op s (prvInvokeCallback user event s).2 ∧
      (prvInvokeCallback user event s).2.context = s.context := by
  obtain ⟨hcalls, hcontext⟩ := invoke_callback_spec user event hevent s
  refine ⟨⟨_, hcalls, ?_⟩, hcontext⟩
  rw [hcontext]
  show Steps _ _ ([MQTTOutput.event event] ++ _) _
  refine .cons (.quiet hnotice) ?_
  cases user.callback.isSome with
  | false => exact .refl _
  | true => exact .single (.quiet hnotice)

/-- The callbacks of the matching subscriptions change nothing but the world. -/
theorem invoke_matching_spec (publish : MQTTPublishData) (isMatch : MQTTSubscription → Bool)
    (subscriptions : List MQTTSubscription) (invoked : Bool) (s : Session W) :
    Does user op s (invokeMatching user publish isMatch subscriptions invoked s).2.2 ∧
      (invokeMatching user publish isMatch subscriptions invoked s).2.2.context = s.context := by
  induction subscriptions generalizing invoked s with
  | nil => exact ⟨.refl s, rfl⟩
  | cons subscription rest ih =>
      simp only [invokeMatching]
      by_cases hmatch : isMatch subscription = true
      · cases hcallback : subscription.publishCallback with
        | none => simpa only [hmatch, if_true] using ih invoked s
        | some callback =>
            simp only [hmatch, if_true]
            have hcall : Calls user s
                [.publishCallback callback subscription.publishCallbackContext publish
                  (user.publishCallback callback subscription.publishCallbackContext publish
                    s.world).1] _ := calls_emit rfl
            have hdoes : Does user op s _ := hcall.does rfl (.quiet trivial)
            split_ifs
            · exact ⟨hdoes, rfl⟩
            · obtain ⟨hrest, hcontext⟩ := ih true _
              exact ⟨hdoes.trans hrest, hcontext⟩
      · rw [if_neg hmatch]
        exact ih invoked s

/-- A publish goes to the matching callbacks or to the generic one, and the context stays. -/
theorem invoke_callback_publish (publish : MQTTPublishData) (s : Session W) :
    Does user op s (prvInvokeCallback user (.publish publish) s).2 ∧
      (prvInvokeCallback user (.publish publish) s).2.context = s.context := by
  have hemit : Does user op s (s.emit (.event (.publish publish))) :=
    does_emit trivial rfl
  have hsubscriptions : Does user op s
        (prvInvokeSubscriptionCallbacks user publish (s.emit (.event (.publish publish)))).2.2 ∧
      (prvInvokeSubscriptionCallbacks user publish
        (s.emit (.event (.publish publish)))).2.2.context = s.context := by
    unfold prvInvokeSubscriptionCallbacks
    obtain ⟨hexact, hcontext⟩ := invoke_matching_spec user op
      publish (MQTTSubscription.matchesExactly publish.topic)
      (s.emit (.event (.publish publish))).context.subscriptionManager.subscriptions.toList false
      (s.emit (.event (.publish publish)))
    simp only
    split_ifs
    · exact ⟨hemit.trans hexact, hcontext⟩
    · obtain ⟨hwild, hcontext'⟩ := invoke_matching_spec user op
        publish (MQTTSubscription.matchesWildCard publish.topic)
        (s.emit (.event (.publish publish))).context.subscriptionManager.subscriptions.toList _ _
      exact ⟨(hemit.trans hexact).trans hwild, hcontext'.trans hcontext⟩
  unfold prvInvokeCallback
  simp only
  split_ifs
  · exact hsubscriptions
  · obtain ⟨hcalls, hcontext⟩ := invoke_event_callback_spec user (.publish publish)
      (prvInvokeSubscriptionCallbacks user publish (s.emit (.event (.publish publish)))).2.2
    refine ⟨hsubscriptions.1.trans ⟨_, hcalls, ?_⟩, hcontext.trans hsubscriptions.2⟩
    rw [hcontext]
    cases user.callback.isSome with
    | false => exact .refl _
    | true => exact .single (.quiet trivial)

/-! ## Reset -/

/-- Returning every buffer of a list unlinks the whole list. -/
theorem return_tx_buffers_spec (buffers : List MQTTBuffer) (s : Session W)
    (hlist : s.context.txBufferList = buffers) :
    Calls user s (buffers.map fun buffer => .returned buffer.handle)
        (returnTxBuffers user buffers s) ∧
      (returnTxBuffers user buffers s).context = { s.context with txBufferList := [] } := by
  induction buffers generalizing s with
  | nil =>
      refine ⟨.refl s, ?_⟩
      show s.context = _
      rw [← hlist]
  | cons buffer rest ih =>
      have hrest : (prvReturnBuffer user (some buffer.handle) s).context.txBufferList = rest := by
        simp [MQTTContext.unlink, hlist]
      obtain ⟨hcalls, hcontext⟩ := ih _ hrest
      refine ⟨(calls_return_buffer buffer.handle s).trans hcalls, ?_⟩
      exact hcontext

/-- `prvResetMQTTContext` returns every buffer and resets the context. -/
theorem reset_context_spec (s : Session W) :
    Calls user s s.context.returns (prvResetMQTTContext user s) ∧
      (prvResetMQTTContext user s).context = s.context.reset := by
  obtain ⟨hcalls, hcontext⟩ := return_tx_buffers_spec user s.context.txBufferList
    (s.update fun context => { context with connectionState := .notConnected }) rfl
  have hhandle : (returnTxBuffers user s.context.txBufferList
      (s.update fun context => { context with connectionState := .notConnected })).context.rxHandle
      = s.context.rxHandle := by
    rw [hcontext]
    rfl
  unfold prvResetMQTTContext
  simp only [update_context]
  rw [hhandle]
  unfold MQTTContext.returns
  cases s.context.rxHandle with
  | none =>
      refine ⟨?_, ?_⟩
      · simpa using (hcalls.of_update.update _).update _
      · rw [return_buffer_none, hcontext]
        rfl
  | some handle =>
      refine ⟨?_, ?_⟩
      · exact ((hcalls.of_update.trans (calls_return_buffer handle _)).update _).update _
      · rw [return_buffer_context, hcontext]
        rfl

/-- The disconnect of a malformed packet, a refused connection or a connect timeout. -/
theorem reset_and_report_spec (reason : MQTTDisconnectReason) (s : Session W) :
    ∃ result, Calls user s
        (s.context.returns ++ user.reported (.clientDisconnected reason) result)
        (resetAndReport user reason s) ∧
      (resetAndReport user reason s).context = s.context.reset := by
  obtain ⟨hreset, hcontext⟩ := reset_context_spec user s
  obtain ⟨hreport, hcontext'⟩ := invoke_callback_spec user
    (.clientDisconnected reason) (by simp) (prvResetMQTTContext user s)
  exact ⟨_, hreset.trans hreport, hcontext'.trans hcontext⟩

end TivaAws.Mqtt
