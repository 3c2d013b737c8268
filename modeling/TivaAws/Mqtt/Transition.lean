import TivaAws.Foundation.Labelled
import TivaAws.Mqtt.Packets
import TivaAws.Mqtt.Parse
import TivaAws.Mqtt.RxState

/-!
# Transitions of a context

Everything the library does to a context, as a labelled transition system: a `Transition` changes
the context and emits outputs, and every operation is a run of transitions (`Session.Does`). A
transition is as large as the invariants need it to be: sending CONNECT and entering the
connection-in-progress state are one transition, and so are reporting an acknowledgment and
returning the buffer it settles. Invariants are proved once for each transition and hold of every
operation by `Labelled.Steps.preserves`.

What the world does is not part of a transition. `Responses` says that the world went through
the calls that the outputs record.
-/

namespace TivaAws.Mqtt

open ByteMemory Labelled

variable {W : Type}

/-! ## Outputs -/

section Outputs

variable (user : MQTTInitParams W)

/-- The outputs of reporting an event other than a publish. -/
def MQTTInitParams.reported (event : MQTTEvent) (result : Bool) : List MQTTOutput :=
  .event event :: if user.callback.isSome then [.eventCallback event result] else []

/-- The outputs of reading the clock. -/
def MQTTInitParams.clock (tickCount : UInt64) : List MQTTOutput :=
  if user.getTicks.isSome then [.ticks tickCount] else []

/-- The outputs of sending a packet, which reads the clock when all of it is accepted. -/
def MQTTInitParams.transmitted (data : List UInt8) (count : Nat) (tickCount : UInt64) :
    List MQTTOutput :=
  .sent data count :: if count = data.length then user.clock tickCount else []

/-- The world after the call that an output records. -/
def Responds (w : W) : MQTTOutput → W → Prop
  | .obtained handle, w' =>
      ∃ requested, ∃ buffer : PoolBuffer requested,
        user.getBuffer requested w = (some buffer, w') ∧ buffer.handle = handle
  | .refused requested, w' => user.getBuffer requested w = (none, w')
  | .returned handle, w' => w' = user.returnBuffer handle w
  | .ticks count, w' => ∃ getTicks, user.getTicks = some getTicks ∧ getTicks w = (count, w')
  | .sent data count, w' => user.send data w = (count, w')
  | .eventCallback reported result, w' =>
      ∃ callback, user.callback = some callback ∧ callback reported w = (result, w')
  | .publishCallback callback context publish result, w' =>
      user.publishCallback callback context publish w = (result, w')
  | .event _, w' | .taken _, w' | .access _ _, w' | .handled _, w' => w' = w

/-- The world after the calls that a list of outputs records. -/
inductive Responses : W → List MQTTOutput → W → Prop where
  | nil (w) : Responses w [] w
  | cons {w w' w'' : W} {output : MQTTOutput} {rest : List MQTTOutput} :
      Responds user w output w' → Responses w' rest w'' → Responses w (output :: rest) w''

end Outputs

/-- An event that neither settles an operation nor concerns the connection. -/
def MQTTEvent.IsNotice : MQTTEvent → Prop
  | .publish _ | .unexpectedConnACK | .unexpectedPubACK | .unexpectedSubACK
  | .unexpectedUnSubACK | .packetDropped => True
  | _ => False

/-- An output that goes with no change of the context. -/
def MQTTOutput.IsQuiet : MQTTOutput → Prop
  | .refused _ | .publishCallback _ _ _ _ | .access _ _ | .handled _ => True
  | .event reported | .eventCallback reported _ => reported.IsNotice
  | _ => False

/-! ## What an operation may do -/

/-- The operation receives bytes. -/
def Op.Receives : Op → Prop
  | .parseReceivedData _ => True
  | _ => False

/-- The operation is `MQTT_Periodic` at a tick count. -/
def Op.Polls (now : UInt64) : Op → Prop
  | .periodic currentTickCount => currentTickCount = now
  | _ => False

/-- The operation is `MQTT_Connect`. -/
def Op.Connects : Op → Prop
  | .connect _ => True
  | _ => False

instance : (op : Op) → Decidable op.Connects
  | .connect _ => isTrue trivial
  | .disconnect | .subscribe _ | .unsubscribe _ | .publish _ | .periodic _
  | .parseReceivedData _ | .returnBuffer _ => isFalse id

instance : (op : Op) → Decidable (op = .disconnect)
  | .disconnect => isTrue rfl
  | .connect _ | .subscribe _ | .unsubscribe _ | .publish _ | .periodic _
  | .parseReceivedData _ | .returnBuffer _ => isFalse Op.noConfusion

/-- The packet of the operation stays on the Tx list of an open connection until it is
acknowledged. -/
def Op.Awaits : Op → Prop
  | .subscribe _ | .unsubscribe _ => True
  | .publish params => params.qos ≠ .qos0
  | _ => False

/-- The operation may drop the connection for a reason other than the answer to CONNECT. -/
def Op.Drops (reason : MQTTDisconnectReason) : Op → Prop
  | .parseReceivedData _ => reason = .malformedPacket
  | .periodic _ => reason = .connectTimeout
  | _ => False

theorem Op.Receives.not_connects {op : Op} (h : op.Receives) : ¬ op.Connects := by
  cases op with
  | parseReceivedData => exact id
  | _ => exact absurd h id

theorem Op.Receives.ne_disconnect {op : Op} (h : op.Receives) : op ≠ .disconnect := by
  rintro rfl
  exact h

theorem Op.Polls.not_connects {op : Op} {now : UInt64} (h : op.Polls now) : ¬ op.Connects := by
  cases op with
  | periodic => exact id
  | _ => exact absurd h id

theorem Op.Polls.unique {op : Op} {now now' : UInt64} (h : op.Polls now) (h' : op.Polls now') :
    now = now' := by
  cases op with
  | periodic => exact h.symm.trans h'
  | _ => exact absurd h id

theorem Op.Polls.ne_disconnect {op : Op} {now : UInt64} (h : op.Polls now) :
    op ≠ .disconnect := by
  rintro rfl
  exact h

theorem Op.Awaits.not_connects {op : Op} (h : op.Awaits) : ¬ op.Connects := by
  cases op with
  | connect => exact absurd h id
  | _ => exact id

theorem Op.Drops.not_connects {op : Op} {reason : MQTTDisconnectReason} (h : op.Drops reason) :
    ¬ op.Connects := by
  cases op with
  | periodic => exact id
  | parseReceivedData => exact id
  | _ => exact absurd h id

/-! ## Packets and buffers -/

/-- The buffer holds a CONNECT packet. -/
def MQTTBuffer.IsConnect (buffer : MQTTBuffer) : Prop :=
  buffer.packetType = controlCONNECT ∧ buffer.packetFlags = flagsCONNECT

/-- The operation reports, with the event, the end of the one whose packet is in the buffer. -/
inductive Settles (op : Op) (buffer : MQTTBuffer) : MQTTEvent → Prop where
  | subACK (returnCode) : op.Receives →
      buffer.packetType = controlSUBSCRIBE → buffer.packetFlags = flagsSUBSCRIBE →
      Settles op buffer (.subACK returnCode buffer.bufferState.packetIdentifier)
  | unSubACK : op.Receives →
      buffer.packetType = controlUNSUBSCRIBE → buffer.packetFlags = flagsUNSUBSCRIBE →
      Settles op buffer (.unSubACK buffer.bufferState.packetIdentifier)
  | pubACK : op.Receives → buffer.packetType = controlPUBLISH →
      Settles op buffer (.pubACK buffer.bufferState.packetIdentifier)
  | timeout (now) : op.Polls now → buffer.controlByte ≠ controlCONNECT ||| flagsCONNECT →
      Settles op buffer (.timeout buffer.bufferState.packetIdentifier)

/-- What the end of an operation does to the subscription manager: a rejected or timed out
subscribe and an acknowledged unsubscribe remove the filter they asked for. -/
def settledManager (buffer : MQTTBuffer) (event : MQTTEvent)
    (manager : MQTTSubscriptionManager) : MQTTSubscriptionManager :=
  match event with
  | .subACK .subACKFailure _ | .unSubACK _ =>
      prvRemoveSubscriptionForSubscribeOrUnsubscribeBuffer buffer manager
  | .timeout _ =>
      if buffer.controlByte = controlSUBSCRIBE ||| flagsSUBSCRIBE then
        prvRemoveSubscriptionForSubscribeOrUnsubscribeBuffer buffer manager
      else manager
  | _ => manager

namespace MQTTContext

/-- Unlink the buffer with a handle from the Tx list. -/
def unlink (handle : MQTTBufferHandle) (context : MQTTContext) : MQTTContext :=
  { context with
    txBufferList := context.txBufferList.eraseP fun buffer => buffer.handle == handle }

/-- Link a buffer at the head of the Tx list. -/
def link (buffer : MQTTBuffer) (context : MQTTContext) : MQTTContext :=
  { context with txBufferList := buffer :: context.txBufferList }

/-- The outputs of returning every buffer of the context. -/
def returns (context : MQTTContext) : List MQTTOutput :=
  context.txBufferList.map (fun buffer => .returned buffer.handle) ++
    context.rxHandle.toList.map .returned

/-- The context after `prvResetMQTTContext`. -/
def reset (context : MQTTContext) : MQTTContext :=
  { prvResetRxMessageState context with
    connectionState := .notConnected
    txBufferList := []
    subscriptionManager := context.subscriptionManager.clear }

/-- Run `prvIsTimeElapsed` on the keep-alive timer. -/
def elapse (currentTickCount : UInt64) (context : MQTTContext) : MQTTContext :=
  let time := prvIsTimeElapsed context.lastSentMessageTimestamp currentTickCount
    context.nextPeriodicInvokeTicks
  { context with lastSentMessageTimestamp := time.2.1, nextPeriodicInvokeTicks := time.2.2 }

end MQTTContext

/-! ## Transitions -/

/-- One change of the context by an operation, together with the outputs that go with it. -/
inductive Transition (user : MQTTInitParams W) (op : Op) :
    MQTTContext → List MQTTOutput → MQTTContext → Prop where
  /-- Something is reported, read or refused, and the context stays as it is. -/
  | quiet {c} {output : MQTTOutput} : output.IsQuiet → Transition user op c [output] c
  /-- `MQTT_Connect` stores its intervals. -/
  | configure {c} (params) : op = .connect params → c.connectionState = .notConnected →
      Transition user op c []
        { c with
          keepAliveActualIntervalTicks := params.keepAliveActualIntervalTicks
          pingRequestTimeoutTicks := params.pingRequestTimeoutTicks }
  /-- CONNECT has been sent. -/
  | connect {c} (buffer) (t t') : op.Connects → c.connectionState = .notConnected →
      buffer.Carries op →
      Transition user op c
        (.obtained buffer.handle :: (user.clock t ++
          user.transmitted buffer.packet buffer.packet.length t'))
        { (c.link buffer).restartKeepAlive t' with connectionState := .connectionInProgress }
  /-- SUBSCRIBE, UNSUBSCRIBE or PUBLISH has been sent and waits for its acknowledgment. -/
  | request {c} (buffer) (t t') : op.Awaits → c.connectionState = .connected →
      buffer.Carries op →
      Transition user op c
        (.obtained buffer.handle :: (user.clock t ++
          user.transmitted buffer.packet buffer.packet.length t'))
        ((c.link buffer).restartKeepAlive t')
  /-- A packet has been handed to the send function and its buffer has been returned at once:
  the send failed or no acknowledgment follows. -/
  | transient {c} (buffer : MQTTBuffer) (count) (t t') :
      (op.Connects ∧ c.connectionState = .notConnected ∨
        ¬ op.Connects ∧ c.connectionState = .connected) →
      (op.Connects ∨ op.Awaits → count ≠ buffer.packet.length) → buffer.Carries op →
      Transition user op c
        (.obtained buffer.handle :: (user.clock t ++
          (user.transmitted buffer.packet count t' ++ [.returned buffer.handle])))
        (if count = buffer.packet.length then c.restartKeepAlive t' else c)
  /-- A packet without a buffer has been handed to the send function: a PUBACK, or a PINGREQ that
  was not sent. -/
  | send {c} (data count) (t) : op.Receives ∨ (∃ now, op.Polls now) ∧ count ≠ data.length →
      c.connectionState ≠ .notConnected → Framed data →
      Transition user op c (user.transmitted data count t)
        (if count = data.length then c.restartKeepAlive t else c)
  /-- PINGREQ has been sent. -/
  | ping {c} (now t t') : op.Polls now → c.connectionState = .connected →
      c.waitingForPingResp = false →
      Transition user op c
        (user.transmitted pingReqPacket pingReqPacket.length t ++ user.clock t')
        { c with
          lastSentMessageTimestamp := t'
          nextPeriodicInvokeTicks := c.pingRequestTimeoutTicks
          waitingForPingResp := true }
  /-- The expected PINGRESP has arrived. -/
  | pong {c} (t) : op.Receives → c.waitingForPingResp = true →
      Transition user op c
        (.handled pingRespPacket :: .access 0 1 :: .access 0 pingRespPacket.length ::
          user.clock t)
        ({ c with waitingForPingResp := false }.restartKeepAlive t)
  /-- PINGRESP has not arrived in time. -/
  | pingTimedOut {c} (now result) : op.Polls now → c.waitingForPingResp = true →
      Transition user op c (user.reported .pingTimeout result)
        { c with waitingForPingResp := false }
  /-- The keep-alive timer has been brought up to date. -/
  | elapse {c} (now) : op.Polls now → c.connectionState = .connected →
      Transition user op c [] (c.elapse now)
  /-- A subscription has been stored. -/
  | store {c} (params) : op = .subscribe params → c.connectionState = .connected →
      Transition user op c []
        { c with
          subscriptionManager :=
            (prvStoreSubscription params.topic.bytes params.publishCallbackContext
              params.publishCallback c.subscriptionManager).2 }
  /-- A subscription has been removed by the subscribe that did not go through. -/
  | remove {c} (params) : op = .subscribe params →
      Transition user op c [] (c.removeSubscription params.topic.bytes)
  /-- The timer of a buffer has been brought up to date. -/
  | stamp {c} (buffer : MQTTBuffer) (now recordedTickCount timeoutTicks) : op.Polls now →
      buffer ∈ c.txBufferList →
      Transition user op c []
        (storeTxBuffer (buffer.stamp recordedTickCount timeoutTicks) c)
  /-- An operation has ended with an acknowledgment or a timeout. -/
  | settle {c} (buffer event result) : c.connectionState ≠ .notConnected →
      buffer ∈ c.txBufferList → Settles op buffer event →
      Transition user op c
        (user.reported event result ++ [.returned buffer.handle])
        { c.unlink buffer.handle with
          subscriptionManager := settledManager buffer event c.subscriptionManager }
  /-- The broker has accepted the connection. -/
  | accept {c} (buffer result t) : op.Receives → c.connectionState ≠ .notConnected →
      buffer ∈ c.txBufferList → buffer.IsConnect →
      Transition user op c
        (user.reported (.connACK .connectionAccepted buffer.bufferState.packetIdentifier) result ++
          (.returned buffer.handle :: user.clock t))
        { ({ c.unlink buffer.handle with connectionState := .connected }.restartKeepAlive t) with
          waitingForPingResp := false }
  /-- The connection has been dropped. -/
  | drop {c} (reason result) : op.Drops reason → c.connectionState ≠ .notConnected →
      Transition user op c
        (c.returns ++ user.reported (.clientDisconnected reason) result) c.reset
  /-- The connection has been dropped because of the answer to CONNECT. -/
  | refuse {c} (buffer reason result) (notices : List MQTTOutput) : op.Receives →
      c.connectionState ≠ .notConnected → buffer ∈ c.txBufferList → buffer.IsConnect →
      (notices = [] ∨ ∃ returnCode result', returnCode ≠ .connectionAccepted ∧
        notices = user.reported
          (.connACK returnCode buffer.bufferState.packetIdentifier) result') →
      Transition user op c
        (notices ++ (.returned buffer.handle :: ((c.unlink buffer.handle).returns ++
          user.reported (.clientDisconnected reason) result)))
        c.reset
  /-- The user has left the connection. -/
  | leave {c} (count t result) : op = .disconnect → c.connectionState ≠ .notConnected →
      Transition user op c
        (user.transmitted disconnectPacket count t ++
          (user.reported (.clientDisconnected .userRequest) result ++ c.returns))
        (if count = disconnectPacket.length then (c.restartKeepAlive t).reset else c.reset)
  /-- The user has disconnected without a connection. -/
  | idle {c} : op = .disconnect → c.connectionState = .notConnected →
      Transition user op c c.returns c.reset
  /-- Received bytes have been stored or counted. -/
  | receive {c c'} : op.Receives → c.connectionState ≠ .notConnected →
      c' = { c with
        rxMessageState := c'.rxMessageState
        rxFixedHeaderBuffer := c'.rxFixedHeaderBuffer
        rxMessageReceivedLength := c'.rxMessageReceivedLength
        rxBuffer := c'.rxBuffer } →
      c'.rxHandle = c.rxHandle →
      Transition user op c [] c'
  /-- A buffer for a received message has been obtained. -/
  | obtainRx {c c'} (rxBuffer : MQTTBuffer) : op.Receives →
      c.connectionState ≠ .notConnected → c.rxBuffer = none →
      c' = { c with
        rxMessageState := c'.rxMessageState
        rxFixedHeaderBuffer := c'.rxFixedHeaderBuffer
        rxMessageReceivedLength := c'.rxMessageReceivedLength
        rxBuffer := some rxBuffer } →
      Transition user op c [.obtained rxBuffer.handle] c'
  /-- The Rx buffer has been returned. -/
  | releaseRx {c} (rxBuffer : MQTTBuffer) : op.Receives → c.connectionState ≠ .notConnected →
      c.rxBuffer = some rxBuffer →
      Transition user op c [.returned rxBuffer.handle]
        (prvResetRxMessageState (c.unlink rxBuffer.handle))
  /-- The user has taken the Rx buffer. -/
  | takeRx {c} (rxBuffer : MQTTBuffer) : op.Receives → c.connectionState ≠ .notConnected →
      c.rxBuffer = some rxBuffer →
      Transition user op c [.taken rxBuffer.handle] (prvResetRxMessageState c)
  /-- The user has returned a buffer. -/
  | giveBack {c} (handle) : op = .returnBuffer handle →
      Transition user op c [.returned handle] (c.unlink handle)

/-! ## Sessions -/

variable (user : MQTTInitParams W) (op : Op)

/-- The session makes the calls that the labels record. -/
structure Session.Calls (s : Session W) (labels : List MQTTOutput) (s' : Session W) : Prop where
  outputs : s'.outputs = s.outputs ++ labels
  responses : Responses user s.world labels s'.world

/-- The session goes through transitions and makes the calls that belong to them. -/
def Session.Does (s s' : Session W) : Prop :=
  ∃ labels, Session.Calls user s labels s' ∧
    Steps (Transition user op) s.context labels s'.context

variable {user op}

theorem Responses.append {w w' w'' : W} {first second : List MQTTOutput}
    (hfirst : Responses user w first w') (hsecond : Responses user w' second w'') :
    Responses user w (first ++ second) w'' := by
  induction hfirst with
  | nil => exact hsecond
  | cons h _ ih => exact .cons h (ih hsecond)

namespace Session

theorem Calls.refl (s : Session W) : Calls user s [] s := ⟨by simp, .nil _⟩

theorem Calls.trans {s s' s'' : Session W} {first second : List MQTTOutput}
    (hfirst : Calls user s first s') (hsecond : Calls user s' second s'') :
    Calls user s (first ++ second) s'' := by
  refine ⟨?_, hfirst.responses.append hsecond.responses⟩
  rw [hsecond.outputs, hfirst.outputs, List.append_assoc]

/-- A change of the context is not a call. -/
theorem Calls.update {s s' : Session W} {labels : List MQTTOutput} (h : Calls user s labels s')
    (change : MQTTContext → MQTTContext) : Calls user s labels (s'.update change) :=
  ⟨h.outputs, h.responses⟩

theorem Calls.of_update {s s' : Session W} {labels : List MQTTOutput}
    {change : MQTTContext → MQTTContext} (h : Calls user (s.update change) labels s') :
    Calls user s labels s' :=
  ⟨h.outputs, h.responses⟩

theorem Does.refl (s : Session W) : Does user op s s := ⟨[], .refl s, .refl _⟩

theorem Does.trans {s s' s'' : Session W} (hfirst : Does user op s s')
    (hsecond : Does user op s' s'') : Does user op s s'' := by
  obtain ⟨first, hcalls, hsteps⟩ := hfirst
  obtain ⟨second, hcalls', hsteps'⟩ := hsecond
  exact ⟨first ++ second, hcalls.trans hcalls', hsteps.append hsteps'⟩

/-- Calls that belong to one transition. -/
theorem Calls.does {s s' : Session W} {labels : List MQTTOutput} (hcalls : Calls user s labels s')
    {c' : MQTTContext} (hcontext : s'.context = c')
    (h : Transition user op s.context labels c') : Does user op s s' :=
  ⟨labels, hcalls, by subst hcontext; exact .single h⟩

end Session

end TivaAws.Mqtt
