import TivaAws.Agent.Task
import TivaAws.Foundation.Runs
import TivaAws.Mqtt.Run

/-!
# Rounds of the MQTT task

The MQTT task as a step: in one round it takes a command from the queue or none, and goes through
all connections before it returns to the queue. `manage_session` is the rule for what a connection
goes through in `prvManageConnections`, and `task_round_preserves` the one for whole rounds. The
base invariant of the contexts makes every round return.
-/

namespace TivaAws.Agent

open Mqtt Sockets Session Runs

variable {E : Type} {user : Environment E} {s s' : Session (Endpoint E)}

/-- One round of the MQTT task, up to where it returns to the queue. -/
def agentStep (user : Environment E) (agent : MQTTAgent E) (received : Option MQTTEventData) :
    Option (MQTTAgent E) :=
  (taskRound user received agent).map Prod.fst

/-- The agent after a command has been received from the queue. -/
def MQTTAgent.receive (data : MQTTNotificationData) (agent : MQTTAgent E) : MQTTAgent E :=
  { agent with outputs := agent.outputs ++ [.received data] }

/-- The agent after a command has been received and processed. -/
def MQTTAgent.command (user : Environment E) (command : MQTTEventData) (agent : MQTTAgent E) :
    MQTTAgent E :=
  (agent.receive command.xNotificationData).store command.uxBrokerNumber
    (processCommand user command
      ((agent.receive command.xNotificationData).session command.uxBrokerNumber))

/-! ## One connection -/

/-- An operation that returns is a run of transitions and keeps the base invariant. -/
theorem executed {W : Type} (params : MQTTInitParams W) {s s' : Session W} (op : Op)
    (hbase : BaseInvariant s.context) (h : execute params s op = some s') :
    Does params op s s' ∧ BaseInvariant s'.context := by
  obtain ⟨returned, hreturned, hdoes, hkept⟩ := execute_does params op s hbase
  rw [h] at hreturned
  cases hreturned
  exact ⟨hdoes, hkept⟩

/-- An operation that `prvManageConnections` calls. -/
def Manages : Op → Prop
  | .disconnect | .periodic _ | .parseReceivedData _ => True
  | _ => False

/-- What `prvManageConnections` goes through with a connection keeps a property of its session. -/
structure KeptByManaging (user : Environment E) (K : Session (Endpoint E) → Prop) : Prop where
  /-- The socket is read. -/
  receives : ∀ s, K s → s.world.connection.xSocket ≠ socketsInvalidSocket →
    K { s with
      world := (s.world.onPort
        (socketsRecv user.toPlatform s.world.connection.xSocket rxBufferSize 0)).2 }
  /-- The clock is read. -/
  ticks : ∀ s, K s → K { s with world := (s.world.call user.getTicks).2 }
  /-- The library is called. -/
  does : ∀ op s s', Manages op → BaseInvariant s.context → K s → Does (initParams user) op s s' →
    K s'

variable {K : Session (Endpoint E) → Prop}

theorem receive_data_session (hkept : KeptByManaging user K) (hbase : BaseInvariant s.context)
    (hstart : K s) :
    ∃ received, receiveData user s = some received ∧ BaseInvariant received.2.context ∧
      K received.2 := by
  unfold receiveData
  by_cases hopen : s.world.connection.xSocket ≠ socketsInvalidSocket
  · rw [if_pos hopen]
    have hreceived := hkept.receives s hstart hopen
    simp only
    generalize s.world.onPort _ = received at hreceived ⊢
    split
    next data _ _ =>
      split_ifs
      · obtain ⟨returned, hreturned, hdoes, hlater⟩ := execute_does (initParams user)
          (.parseReceivedData data) { s with world := received.2 } hbase
        obtain ⟨parsed, hparsed, rfl⟩ := Option.map_eq_some_iff.mp hreturned
        refine ⟨(true, parsed.2), ?_, hlater, ?_⟩
        · rw [hparsed]
          rfl
        · exact hkept.does (.parseReceivedData data) { s with world := received.2 } _ trivial hbase
            hreceived hdoes
      · exact ⟨_, rfl, hbase, hreceived⟩
    next code _ =>
      split_ifs
      · obtain ⟨hdoes, hlater⟩ := executed (initParams user)
          (s := { s with world := received.2 }) .disconnect hbase rfl
        exact ⟨_, rfl, hlater, hkept.does .disconnect { s with world := received.2 } _ trivial hbase
          hreceived hdoes⟩
      · exact ⟨_, rfl, hbase, hreceived⟩
  · rw [if_neg hopen]
    exact ⟨_, rfl, hbase, hstart⟩

theorem invoke_periodic_session (hkept : KeptByManaging user K) (hbase : BaseInvariant s.context)
    (hstart : K s) :
    BaseInvariant (invokePeriodic user s).1.context ∧ K (invokePeriodic user s).1 := by
  obtain ⟨hdoes, hlater⟩ := executed (initParams user)
    (s := { s with world := (s.world.call user.getTicks).2 })
    (.periodic (s.world.call user.getTicks).1) hbase rfl
  exact ⟨hlater, hkept.does (.periodic (s.world.call user.getTicks).1)
    { s with world := (s.world.call user.getTicks).2 } _ trivial hbase (hkept.ticks s hstart) hdoes⟩

/-- What is kept by managing a connection holds when `prvManageConnections` is done with it. -/
theorem manage_session (hkept : KeptByManaging user K) (hbase : BaseInvariant s.context)
    (hstart : K s) :
    ∃ received, receiveData user s = some received ∧
      BaseInvariant (invokePeriodic user received.2).1.context ∧
      K (invokePeriodic user received.2).1 := by
  obtain ⟨received, hreceived, hbase', hmiddle⟩ := receive_data_session hkept hbase hstart
  exact ⟨received, hreceived, invoke_periodic_session hkept hbase' hmiddle⟩

/-! ## All connections -/

variable {Inv : MQTTAgent E → Prop}

/-- Each connection can be managed, and the invariant still holds then. -/
def KeptByConnections (user : Environment E) (Inv : MQTTAgent E → Prop) : Prop :=
  ∀ agent broker, Inv agent → ∃ received,
    receiveData user (agent.session broker) = some received ∧
      Inv (agent.store broker (invokePeriodic user received.2).1)

theorem manage_connections_preserves (hmanage : KeptByConnections user Inv)
    (brokers : List (Fin maxBrokers)) (state : MQTTAgent E × Bool × UInt32) (hstart : Inv state.1) :
    ∃ managed, brokers.foldlM (fun state broker => manageConnection user broker state) state =
      some managed ∧ Inv managed.1 := by
  induction brokers generalizing state with
  | nil => exact ⟨state, rfl, hstart⟩
  | cons broker rest ih =>
      obtain ⟨received, hreceived, hnext⟩ := hmanage state.1 broker hstart
      obtain ⟨managed, hmanaged, hfinish⟩ := ih
        (state.1.store broker (invokePeriodic user received.2).1,
          state.2.1 || decide (received.2.world.connection.xSocket ≠ socketsInvalidSocket),
          min (if received.1 then 0 else state.2.2) (invokePeriodic user received.2).2) hnext
      refine ⟨managed, ?_, hfinish⟩
      rw [List.foldlM_cons]
      unfold manageConnection at hmanaged ⊢
      simp only [hreceived, Option.bind_eq_bind, Option.bind_some]
      exact hmanaged

/-- A round of the task returns to the queue with what its command and its connections keep. -/
theorem task_round_preserves (hmanage : KeptByConnections user Inv) {agent : MQTTAgent E}
    {received : Option MQTTEventData} (hstart : received = none → Inv agent)
    (hcommand : ∀ command ∈ received, Inv (agent.command user command)) :
    ∃ agent', agentStep user agent received = some agent' ∧ Inv agent' := by
  have hmanaged : ∀ agent, Inv agent → ∃ agent',
      (prvManageConnections user agent).map Prod.fst = some agent' ∧ Inv agent' := by
    intro agent hinv
    obtain ⟨managed, hmanaged, hfinish⟩ := manage_connections_preserves hmanage
      (List.finRange maxBrokers) (agent, false, portMaxDelay) hinv
    unfold prvManageConnections
    rw [hmanaged]
    exact ⟨_, rfl, hfinish⟩
  cases received with
  | none => exact hmanaged agent (hstart rfl)
  | some command => exact hmanaged _ (hcommand command rfl)

end TivaAws.Agent
