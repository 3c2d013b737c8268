import TivaAws.Mqtt.OperationSteps
import TivaAws.Mqtt.ParseSteps

/-!
# Runs of a client

A client calls the operations of the library one after the other on a context that `MQTT_Init`
has set up. Between two operations the world changes in any way. A run carries its history, the
operations with the outputs of each. Two invariants hold in every run: the one of the receive
state, and that a context that is not connected holds nothing. With these, every operation is a
run of transitions (`execute_does`).
-/

namespace TivaAws.Mqtt

open Session Labelled

variable {W : Type}

/-! ## Operations -/

/-- Execute an operation; `none` if it does not return. -/
def execute (user : MQTTInitParams W) (s : Session W) : Op → Option (Session W)
  | .connect params => some (mqttConnect user params s).2
  | .disconnect => some (mqttDisconnect user s).2
  | .subscribe params => some (mqttSubscribe user params s).2
  | .unsubscribe params => some (mqttUnsubscribe user params s).2
  | .publish params => some (mqttPublish user params s).2
  | .periodic currentTickCount => some (mqttPeriodic user currentTickCount s).1
  | .parseReceivedData data => (mqttParseReceivedData user data s).map Prod.snd
  | .returnBuffer handle => some (mqttReturnBuffer user handle s).2

/-- One operation with its outputs, in any world. -/
inductive Executes (user : MQTTInitParams W) :
    MQTTContext → List (Op × List MQTTOutput) → MQTTContext → Prop where
  | call {context : MQTTContext} {op : Op} {s : Session W} (w : W) :
      execute user ⟨context, w, []⟩ op = some s → Executes user context [(op, s.outputs)] s.context

/-- A run of a client from `MQTT_Init` on, with its history. -/
def Run (user : MQTTInitParams W) (memory : MQTTContext) (history : List (Op × List MQTTOutput))
    (context : MQTTContext) : Prop :=
  Steps (Executes user) (mqttInit memory) history context

/-! ## A context that is not connected -/

/-- The context holds no buffer and no subscription, and nothing is being received. -/
structure MQTTContext.Released (context : MQTTContext) : Prop where
  txBufferList : context.txBufferList = []
  boundary : AtBoundary context
  unused : ∀ i : Fin _, context.subscriptionManager.subscriptions[i].inUse = false

/-- A context that is not connected holds nothing. -/
def ReleasedWhenDisconnected (context : MQTTContext) : Prop :=
  context.connectionState = .notConnected → context.Released

theorem clear_unused (manager : MQTTSubscriptionManager) (i : Fin _) :
    manager.clear.subscriptions[i].inUse = false := by
  simp [MQTTSubscriptionManager.clear]

theorem released_reset (context : MQTTContext) : context.reset.Released :=
  ⟨rfl, ⟨rfl, rfl, rfl⟩, clear_unused _⟩

theorem released_init (memory : MQTTContext) : (mqttInit memory).Released :=
  ⟨rfl, ⟨rfl, rfl, rfl⟩, clear_unused _⟩

/-- Nothing is removed where nothing is in use. -/
theorem remove_subscription_unused {topic : List UInt8} {manager : MQTTSubscriptionManager}
    (h : ∀ i : Fin _, manager.subscriptions[i].inUse = false) :
    prvRemoveSubscription topic manager = manager := by
  have hnone : Table.firstIndex (MQTTSubscription.isFor topic) manager.subscriptions = none := by
    rw [Table.firstIndex_eq_none_iff]
    intro i
    rw [MQTTSubscription.isFor, h i, Bool.false_and]
  simp [prvRemoveSubscription, hnone]

variable {user : MQTTInitParams W} {op : Op} {c c' : MQTTContext}
  {labels : List MQTTOutput}

/-- Every transition keeps a context that is not connected empty. -/
theorem Transition.released (h : Transition user op c labels c')
    (hinv : ReleasedWhenDisconnected c) : ReleasedWhenDisconnected c' := by
  -- Most transitions need a connection or keep what is released. The others release all of it.
  cases h with
  | quiet => exact hinv
  | configure params hop hstate =>
      intro _
      exact ⟨(hinv hstate).txBufferList, (hinv hstate).boundary, (hinv hstate).unused⟩
  | connect => exact fun hidle => MQTTConnectionState.noConfusion hidle
  | request buffer t t' hop hstate =>
      intro hidle
      exact absurd (hstate.symm.trans hidle) (by decide)
  | transient buffer count t t' hstate =>
      split_ifs
      · exact fun hidle => ⟨(hinv hidle).txBufferList, (hinv hidle).boundary, (hinv hidle).unused⟩
      · exact hinv
  | send data count t hop hstate =>
      split_ifs
      · exact fun hidle => absurd hidle hstate
      · exact hinv
  | ping now t t' hop hstate =>
      intro hidle
      exact absurd (hstate.symm.trans hidle) (by decide)
  | pong =>
      intro hidle
      exact ⟨(hinv hidle).txBufferList, (hinv hidle).boundary, (hinv hidle).unused⟩
  | pingTimedOut =>
      intro hidle
      exact ⟨(hinv hidle).txBufferList, (hinv hidle).boundary, (hinv hidle).unused⟩
  | elapse now hop hstate =>
      intro hidle
      exact absurd (hstate.symm.trans hidle) (by decide)
  | store params hop hstate =>
      intro hidle
      exact absurd (hstate.symm.trans hidle) (by decide)
  | remove params =>
      intro hidle
      refine ⟨(hinv hidle).txBufferList, (hinv hidle).boundary, ?_⟩
      rw [MQTTContext.removeSubscription, remove_subscription_unused (hinv hidle).unused]
      exact (hinv hidle).unused
  | stamp buffer now recordedTickCount timeoutTicks hop hmem =>
      intro hidle
      rw [(hinv hidle).txBufferList] at hmem
      exact absurd hmem List.not_mem_nil
  | settle buffer event result hstate => exact fun hidle => absurd hidle hstate
  | accept => exact fun hidle => MQTTConnectionState.noConfusion hidle
  | drop => exact fun _ => released_reset c
  | refuse => exact fun _ => released_reset c
  | leave count t result hop hstate =>
      split_ifs
      · exact fun _ => released_reset _
      · exact fun _ => released_reset c
  | idle => exact fun _ => released_reset c
  | receive hop hstate hframe =>
      intro hidle
      rw [hframe] at hidle
      exact absurd hidle hstate
  | obtainRx rxBuffer hop hstate hrx hframe =>
      intro hidle
      rw [hframe] at hidle
      exact absurd hidle hstate
  | releaseRx rxBuffer hop hstate => exact fun hidle => absurd hidle hstate
  | takeRx rxBuffer hop hstate => exact fun hidle => absurd hidle hstate
  | giveBack handle =>
      intro hidle
      refine ⟨?_, (hinv hidle).boundary, (hinv hidle).unused⟩
      simp [MQTTContext.unlink, (hinv hidle).txBufferList]

/-- The receive fields are the same. -/
structure SameReception (context other : MQTTContext) : Prop where
  state : other.rxMessageState = context.rxMessageState
  length : other.rxMessageReceivedLength = context.rxMessageReceivedLength
  header : other.rxFixedHeaderBuffer = context.rxFixedHeaderBuffer
  buffer : other.rxBuffer = context.rxBuffer

/-- A transition of an operation that receives nothing leaves the receive state alone or resets
it. -/
theorem Transition.reception (h : Transition user op c labels c') (hop : ¬ op.Receives) :
    SameReception c c' ∨ AtBoundary c' := by
  have hreset : ∀ context : MQTTContext, AtBoundary context.reset :=
    fun context => at_boundary_reset_rx context
  cases h with
  | quiet => exact Or.inl ⟨rfl, rfl, rfl, rfl⟩
  | configure => exact Or.inl ⟨rfl, rfl, rfl, rfl⟩
  | connect => exact Or.inl ⟨rfl, rfl, rfl, rfl⟩
  | request => exact Or.inl ⟨rfl, rfl, rfl, rfl⟩
  | transient =>
      left
      split_ifs
      · exact ⟨rfl, rfl, rfl, rfl⟩
      · exact ⟨rfl, rfl, rfl, rfl⟩
  | send =>
      left
      split_ifs
      · exact ⟨rfl, rfl, rfl, rfl⟩
      · exact ⟨rfl, rfl, rfl, rfl⟩
  | ping => exact Or.inl ⟨rfl, rfl, rfl, rfl⟩
  | pong => exact Or.inl ⟨rfl, rfl, rfl, rfl⟩
  | pingTimedOut => exact Or.inl ⟨rfl, rfl, rfl, rfl⟩
  | elapse => exact Or.inl ⟨rfl, rfl, rfl, rfl⟩
  | store => exact Or.inl ⟨rfl, rfl, rfl, rfl⟩
  | remove => exact Or.inl ⟨rfl, rfl, rfl, rfl⟩
  | stamp => exact Or.inl ⟨rfl, rfl, rfl, rfl⟩
  | settle => exact Or.inl ⟨rfl, rfl, rfl, rfl⟩
  | accept => exact Or.inl ⟨rfl, rfl, rfl, rfl⟩
  | drop => exact Or.inr (hreset c)
  | refuse => exact Or.inr (hreset c)
  | leave =>
      right
      split_ifs
      · exact hreset _
      · exact hreset c
  | idle => exact Or.inr (hreset c)
  | receive hreceiving => exact absurd hreceiving hop
  | obtainRx rxBuffer hreceiving => exact absurd hreceiving hop
  | releaseRx rxBuffer hreceiving => exact absurd hreceiving hop
  | takeRx rxBuffer hreceiving => exact absurd hreceiving hop
  | giveBack => exact Or.inl ⟨rfl, rfl, rfl, rfl⟩

theorem Transition.rx_invariant (h : Transition user op c labels c')
    (hop : ¬ op.Receives) (hinv : RxInvariant c) : RxInvariant c' := by
  rcases h.reception hop with hsame | hboundary
  · exact hinv.congr hsame.state hsame.length hsame.header hsame.buffer
  · exact hboundary.rx_invariant

/-- An operation that receives nothing does not leave a packet boundary. -/
theorem Transition.at_boundary (h : Transition user op c labels c') (hop : ¬ op.Receives)
    (hinv : AtBoundary c) : AtBoundary c' := by
  rcases h.reception hop with hsame | hboundary
  · rw [AtBoundary, hsame.state, hsame.length, hsame.buffer]
    exact hinv
  · exact hboundary

/-! ## Every operation is a run of transitions -/

/-- What holds between any two operations. -/
structure BaseInvariant (context : MQTTContext) : Prop where
  rx : RxInvariant context
  released : ReleasedWhenDisconnected context

theorem base_invariant_init (memory : MQTTContext) : BaseInvariant (mqttInit memory) :=
  ⟨(released_init memory).boundary.rx_invariant, fun _ => released_init memory⟩

/-- An operation on a context with the base invariant returns, is a run of transitions and keeps
the base invariant. -/
theorem execute_does (user : MQTTInitParams W) (op : Op) (s : Session W)
    (hinv : BaseInvariant s.context) :
    ∃ s', execute user s op = some s' ∧ Does user op s s' ∧ BaseInvariant s'.context := by
  have hkeep : ∀ s', ¬ op.Receives → Does user op s s' →
      Does user op s s' ∧ BaseInvariant s'.context := by
    intro s' hreceives hdoes
    obtain ⟨labels, hcalls, hsteps⟩ := hdoes
    refine ⟨⟨labels, hcalls, hsteps⟩, ?_, ?_⟩
    · exact hsteps.preserves RxInvariant (fun hrx h => h.rx_invariant hreceives hrx) hinv.rx
    · exact hsteps.preserves ReleasedWhenDisconnected (fun hreleased h => h.released hreleased)
        hinv.released
  cases op with
  | connect params => exact ⟨_, rfl, hkeep _ id (does_connect user params s).1⟩
  | disconnect => exact ⟨_, rfl, hkeep _ id (does_disconnect user s)⟩
  | subscribe params => exact ⟨_, rfl, hkeep _ id (does_subscribe user params s).1⟩
  | unsubscribe params => exact ⟨_, rfl, hkeep _ id (does_unsubscribe user params s).1⟩
  | publish params => exact ⟨_, rfl, hkeep _ id (does_mqtt_publish user params s).1⟩
  | periodic now =>
      exact ⟨_, rfl, hkeep _ id (does_periodic user now s fun hidle =>
        (hinv.released hidle).txBufferList)⟩
  | parseReceivedData data =>
      obtain ⟨returnCode, s', hparse, hdoes, hrx⟩ := parse_received_data_total user data data s
        hinv.rx
      refine ⟨s', by simp [execute, hparse], hdoes, hrx, ?_⟩
      obtain ⟨labels, -, hsteps⟩ := hdoes
      exact hsteps.preserves ReleasedWhenDisconnected (fun hreleased h => h.released hreleased)
        hinv.released
  | returnBuffer handle => exact ⟨_, rfl, hkeep _ id (does_return_buffer user handle s)⟩

/-- The base invariant holds at the end of every operation of a run. -/
theorem Executes.base_invariant {entry : List (Op × List MQTTOutput)}
    (hinv : BaseInvariant c) (h : Executes user c entry c') : BaseInvariant c' := by
  cases h with
  | @call op s w hexecute =>
      obtain ⟨s', hsome, -, hkeep⟩ := execute_does user op ⟨c, w, []⟩ hinv
      rw [hexecute] at hsome
      cases hsome
      exact hkeep

theorem Run.base_invariant {memory : MQTTContext} {history : List (Op × List MQTTOutput)}
    (h : Run user memory history c) : BaseInvariant c :=
  Steps.preserves BaseInvariant Executes.base_invariant h (base_invariant_init memory)

/-- An operation of a run is a run of transitions with the outputs of its entry. -/
theorem Executes.steps {entry : List (Op × List MQTTOutput)} (hinv : BaseInvariant c)
    (h : Executes user c entry c') :
    ∃ op labels, entry = [(op, labels)] ∧ Steps (Transition user op) c labels c' := by
  cases h with
  | @call op s w hexecute =>
      obtain ⟨s', hsome, hdoes, -⟩ := execute_does user op ⟨c, w, []⟩ hinv
      rw [hexecute] at hsome
      cases hsome
      obtain ⟨labels, hcalls, hsteps⟩ := hdoes
      have houtputs : s.outputs = labels := by simpa using hcalls.outputs
      exact ⟨op, s.outputs, rfl, houtputs ▸ hsteps⟩

end TivaAws.Mqtt
