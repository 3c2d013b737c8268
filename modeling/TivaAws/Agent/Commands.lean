import TivaAws.Agent.Requests
import TivaAws.Foundation.Runs
import TivaAws.Rtos.TaskNotification

/-!
# Commands of many tasks

`prvSendCommandToMQTTTask` as a machine that stops between its critical sections, for any number of
tasks at once, among what the MQTT task does with their commands and what other code does with their
notifications. A command is numbered when it is issued; the number, the list of the commands that
the MQTT task has not answered and where their notification data is stored are for reasoning only.
-/

namespace TivaAws.Agent

open Rtos Table

/-! ## State -/

/-- `mqttMESSAGE_IDENTIFIER_MIN`. -/
def messageIdentifierMin : UInt32 := 0x00010000

/-- `mqttMESSAGE_IDENTIFIER_MAX`. -/
def messageIdentifierMax : UInt32 := 0xFFFF0000

/-- `mqttMESSAGE_IDENTIFIER_MASK`. -/
def messageIdentifierMask : UInt32 := 0xFFFF0000

/-- What `MQTTEventData_t` says about who has sent it, with the number of the command. -/
structure Command where
  number : Nat
  uxBrokerNumber : Fin maxBrokers
  xTaskToNotify : TaskHandle
  ulMessageIdentifier : UInt32
  deriving DecidableEq, Repr

/-- `xNotificationData` of a command. -/
def Command.xNotificationData (command : Command) : MQTTNotificationData :=
  ⟨some command.xTaskToNotify, command.ulMessageIdentifier⟩

/-- Where a task is in `prvSendCommandToMQTTTask`. -/
inductive SendPhase where
  /-- Not in it. -/
  | outside
  /-- Before `xTaskNotifyStateClear`. -/
  | identified (command : Command)
  /-- In `xQueueSendToBack`. -/
  | sending (command : Command)
  /-- At the beginning of the loop. -/
  | sent (command : Command)
  /-- In `xTaskNotifyWait`. -/
  | waiting (command : Command)
  deriving DecidableEq, Repr

/-- The command that a task is occupied with. -/
def SendPhase.command : SendPhase → Option Command
  | .outside => none
  | .identified command | .sending command | .sent command | .waiting command => some command

/-- The command whose reply a task waits for. -/
def SendPhase.awaited : SendPhase → Option Command
  | .outside | .identified _ | .sending _ => none
  | .sent command | .waiting command => some command

/-- The tasks with their notifications, the connections of the agent, and the commands that have
been sent and not been answered. -/
structure AgentSystem where
  xMQTTTaskHandle : TaskHandle
  ulQueueMessageIdentifier : UInt32
  xMQTTConnections : Fin maxBrokers → MQTTBrokerConnection
  phase : TaskHandle → SendPhase
  notification : TaskHandle → TaskNotification
  issued : Nat
  unanswered : List Command
  stored : Command → Option (Fin maxParallelOps)

/-- The agent after `MQTT_AGENT_Init`, when no task has used its notification. -/
def AgentSystem.initial (xMQTTTaskHandle : TaskHandle) : AgentSystem where
  xMQTTTaskHandle
  ulQueueMessageIdentifier := messageIdentifierMin
  xMQTTConnections := fun _ => .initial
  phase := fun _ => .outside
  notification := fun _ => ⟨0, .notWaiting⟩
  issued := 0
  unanswered := []
  stored := fun _ => none

/-- What happens next. `own` is what a task does with its notification outside of the agent,
`notify` a notification by code other than the MQTT task. The MQTT task stores the notification data
of a command, answers it while it works on it, answers the entry with a packet identifier, or
answers an entry because of a disconnect; which command an entry belongs to is part of the event. -/
inductive CommandEvent where
  | own (task : TaskHandle) (notification : TaskNotification)
  | notify (task : TaskHandle) (ulValue : UInt32) (eAction : NotifyAction)
  | issue (task : TaskHandle) (uxBrokerNumber : Fin maxBrokers)
  | clear (task : TaskHandle)
  | send (task : TaskHandle) (passed : Bool)
  | wait (task : TaskHandle)
  | wake (task : TaskHandle)
  | store (command : Command)
  | answer (command : Command) (code : MQTTNotifyCode) (uxStatus : Bool)
  | acknowledge (uxBrokerNumber : Fin maxBrokers) (usPacketIdentifier : UInt16)
      (command : Command) (code : MQTTNotifyCode) (uxStatus : Bool)
  | disconnect (uxBrokerNumber : Fin maxBrokers) (x : Fin maxParallelOps) (command : Command)

/-! ## Steps -/

namespace AgentSystem

variable (s : AgentSystem)

/-- Change what is kept about the notifications of a task. -/
def setNotification (task : TaskHandle) (notification : TaskNotification) : AgentSystem :=
  { s with notification := Function.update s.notification task notification }

/-- A task goes on to another phase. -/
def enter (task : TaskHandle) (phase : SendPhase) : AgentSystem :=
  { s with phase := Function.update s.phase task phase }

/-- The identifier that follows in `ulQueueMessageIdentifier`. -/
def nextIdentifier : UInt32 :=
  if messageIdentifierMax ≤ s.ulQueueMessageIdentifier + messageIdentifierMin then
    messageIdentifierMin
  else s.ulQueueMessageIdentifier + messageIdentifierMin

/-- The command that a task issues next. -/
def nextCommand (task : TaskHandle) (uxBrokerNumber : Fin maxBrokers) : Command :=
  ⟨s.issued, uxBrokerNumber, task, s.ulQueueMessageIdentifier⟩

/-- The critical section that gives a command its identifier. -/
def issueCommand (task : TaskHandle) (uxBrokerNumber : Fin maxBrokers) : AgentSystem :=
  { s.enter task (.identified (s.nextCommand task uxBrokerNumber)) with
    ulQueueMessageIdentifier := s.nextIdentifier
    issued := s.issued + 1 }

/-- The wait of a task ends: the command is done if the value is the reply to it. -/
def leaveWait (task : TaskHandle) (command : Command) : AgentSystem :=
  let ulReceivedMessageIdentifier := (s.notification task).ulNotifiedValue
  (s.setNotification task (s.notification task).leaveWait).enter task
    (if command.ulMessageIdentifier = ulReceivedMessageIdentifier &&& messageIdentifierMask then
      .outside
    else .sent command)

/-- Change an entry of the waiting tasks of a connection. -/
def setEntry (uxBrokerNumber : Fin maxBrokers) (x : Fin maxParallelOps)
    (data : MQTTNotificationData) : AgentSystem :=
  { s with
    xMQTTConnections := Function.update s.xMQTTConnections uxBrokerNumber
      { s.xMQTTConnections uxBrokerNumber with
        xWaitingTasks := (s.xMQTTConnections uxBrokerNumber).xWaitingTasks.set x data x.isLt } }

/-- An entry of the waiting tasks of a connection. -/
def entry (uxBrokerNumber : Fin maxBrokers) (x : Fin maxParallelOps) : MQTTNotificationData :=
  getElem (s.xMQTTConnections uxBrokerNumber).xWaitingTasks x x.isLt

/-- The notification of `prvNotifyRequestingTask`, of which the result is ignored. -/
def notifyTask (data : MQTTNotificationData) (code : MQTTNotifyCode) (uxStatus : Bool) :
    AgentSystem :=
  match data.xTaskToNotify with
  | none => s
  | some task =>
      s.setNotification task ((s.notification task).xTaskNotify (data.outcome code uxStatus)
        .setValueWithoutOverwrite)

/-- The command has been answered and its entry is free. Nothing else in a free entry is read. -/
def release (command : Command) : AgentSystem :=
  let s := match s.stored command with
    | none => s
    | some x =>
        s.setEntry command.uxBrokerNumber x
          { s.entry command.uxBrokerNumber x with xTaskToNotify := none }
  { s with
    unanswered := s.unanswered.filter (· ≠ command)
    stored := Function.update s.stored command none }

/-- The notification data of a command is in an entry of its connection. -/
def StoredIn (command : Command) (uxBrokerNumber : Fin maxBrokers) (x : Fin maxParallelOps) :
    Prop :=
  command.uxBrokerNumber = uxBrokerNumber ∧ s.stored command = some x

instance (command : Command) (uxBrokerNumber : Fin maxBrokers) (x : Fin maxParallelOps) :
    Decidable (s.StoredIn command uxBrokerNumber x) :=
  inferInstanceAs (Decidable (_ ∧ _))

end AgentSystem

/-- What an event does, `none` if it cannot happen. -/
def commandStep (s : AgentSystem) : CommandEvent → Option AgentSystem
  | .own task notification =>
      if s.phase task = .outside ∧ notification.ucNotifyState ≠ .waiting then
        some (s.setNotification task notification)
      else none
  | .notify task ulValue eAction =>
      some (s.setNotification task ((s.notification task).xTaskNotify ulValue eAction))
  | .issue task uxBrokerNumber =>
      if s.phase task = .outside then
        -- From the MQTT task itself the call returns at once.
        some (if task ≠ s.xMQTTTaskHandle then s.issueCommand task uxBrokerNumber else s)
      else none
  | .clear task =>
      match s.phase task with
      | .identified command =>
          some ((s.setNotification task (s.notification task).xTaskNotifyStateClear).enter task
            (.sending command))
      | _ => none
  | .send task passed =>
      match s.phase task with
      | .sending command =>
          some (if passed then
            { s.enter task (.sent command) with unanswered := command :: s.unanswered }
          else s.enter task .outside)
      | _ => none
  | .wait task =>
      match s.phase task with
      | .sent command =>
          some ((s.setNotification task (s.notification task).enterWait).enter task
            (.waiting command))
      | _ => none
  | .wake task =>
      match s.phase task with
      | .waiting command =>
          if (s.notification task).ucNotifyState = .received then some (s.leaveWait task command)
          else none
      | _ => none
  | .store command =>
      if command ∈ s.unanswered ∧ s.stored command = none then
        let stored := prvStoreNotificationData command.xNotificationData
          (s.xMQTTConnections command.uxBrokerNumber)
        stored.1.map fun x =>
          { s with
            xMQTTConnections :=
              Function.update s.xMQTTConnections command.uxBrokerNumber stored.2
            stored := Function.update s.stored command (some x) }
      else none
  | .answer command code uxStatus =>
      if command ∈ s.unanswered then
        some ((s.notifyTask command.xNotificationData code uxStatus).release command)
      else none
  | .acknowledge uxBrokerNumber usPacketIdentifier command code uxStatus =>
      (prvRetrieveNotificationData usPacketIdentifier (s.xMQTTConnections uxBrokerNumber)).bind
        fun x =>
          if s.StoredIn command uxBrokerNumber x then
            some ((s.notifyTask (s.entry uxBrokerNumber x) code uxStatus).release command)
          else none
  | .disconnect uxBrokerNumber x command =>
      if s.StoredIn command uxBrokerNumber x then
        some ((s.notifyTask (s.entry uxBrokerNumber x) .clientGotDisconnected false).release
          command)
      else none

/-! ## Identifiers -/

/-- The identifier of the command with a number: the identifiers repeat after 65534 commands. -/
def identifierOf (number : Nat) : UInt32 :=
  UInt32.ofNat ((number % 65534 + 1) * 2 ^ 16)

theorem identifier_of_to_nat (number : Nat) :
    (identifierOf number).toNat = (number % 65534 + 1) * 2 ^ 16 := by
  have hlt : (number % 65534 + 1) * 2 ^ 16 < 2 ^ 32 := by omega
  exact UInt32.toNat_ofNat_of_lt' hlt

theorem identifier_of_inj {m n : Nat} :
    identifierOf m = identifierOf n ↔ m % 65534 = n % 65534 := by
  rw [← UInt32.toNat_inj, identifier_of_to_nat, identifier_of_to_nat]
  omega

/-- An identifier has nothing in its lower half. -/
theorem identifier_of_masked (number : Nat) :
    identifierOf number &&& messageIdentifierMask = identifierOf number := by
  have hlt : number % 65534 + 1 < 2 ^ 16 := by omega
  apply UInt32.toNat_inj.mp
  rw [UInt32.toNat_and, identifier_of_to_nat,
    show messageIdentifierMask.toNat = (2 ^ 16 - 1) * 2 ^ 16 from rfl,
    ← Nat.shiftLeft_eq, ← Nat.shiftLeft_eq, ← Nat.shiftLeft_and_distrib,
    Nat.and_two_pow_sub_one_of_lt_two_pow hlt]

/-- The upper half of an identifier is the packet identifier. -/
theorem extract_identifier_of (number : Nat) :
    (messageIdentifierExtract (identifierOf number)).toNat = number % 65534 + 1 := by
  have hlt : number % 65534 + 1 < 2 ^ 16 := by omega
  unfold messageIdentifierExtract
  rw [UInt32.toNat_toUInt16, UInt32.toNat_shiftRight, identifier_of_to_nat,
    show (16 : UInt32).toNat % 32 = 16 from rfl, Nat.shiftRight_eq_div_pow,
    Nat.mul_div_cancel _ (by norm_num), Nat.mod_eq_of_lt hlt]

/-- The identifier is the one of the next command. -/
theorem next_identifier {s : AgentSystem} {number : Nat}
    (h : s.ulQueueMessageIdentifier = identifierOf number) :
    s.nextIdentifier = identifierOf (number + 1) := by
  have hsum : (identifierOf number + messageIdentifierMin).toNat =
      (number % 65534 + 2) * 2 ^ 16 := by
    rw [UInt32.toNat_add, identifier_of_to_nat,
      show messageIdentifierMin.toNat = 2 ^ 16 from rfl, Nat.mod_eq_of_lt (by omega)]
    omega
  unfold AgentSystem.nextIdentifier
  rw [h]
  apply UInt32.toNat_inj.mp
  rw [identifier_of_to_nat]
  have hbound : messageIdentifierMax ≤ identifierOf number + messageIdentifierMin ↔
      65535 * 2 ^ 16 ≤ (number % 65534 + 2) * 2 ^ 16 := by
    rw [UInt32.le_iff_toNat_le, hsum]
    rfl
  split_ifs with hmax
  · -- The last identifier before the bound has been given.
    rw [hbound] at hmax
    rw [show messageIdentifierMin.toNat = 2 ^ 16 from rfl]
    omega
  · rw [hbound] at hmax
    rw [hsum]
    omega

theorem or_masked (x y mask : UInt32) : (x ||| y) &&& mask = (x &&& mask) ||| (y &&& mask) :=
  UInt32.toBitVec_inj.mp BitVec.and_or_distrib_right

/-- The codes and the status leave the identifier of a command alone. -/
theorem outcome_masked {data : MQTTNotificationData} {number : Nat}
    (h : data.ulMessageIdentifier = identifierOf number) (code : MQTTNotifyCode)
    (uxStatus : Bool) :
    data.outcome code uxStatus &&& messageIdentifierMask = data.ulMessageIdentifier := by
  have hcode : code.toUInt32 &&& messageIdentifierMask = 0 := by cases code <;> rfl
  have hstatus : (if uxStatus then 1 else 0 : UInt32) &&& messageIdentifierMask = 0 := by
    cases uxStatus <;> rfl
  unfold MQTTNotificationData.outcome
  rw [or_masked, or_masked, hcode, hstatus, h, identifier_of_masked, UInt32.or_zero, UInt32.or_zero]

/-! ## Commands under way -/

variable {s s' : AgentSystem} {event : CommandEvent} {command other : Command}
  {task : TaskHandle} {phase : SendPhase}

/-- A command that a task has issued and still waits for, or that has been sent and not answered. -/
def AgentSystem.UnderWay (s : AgentSystem) (command : Command) : Prop :=
  (∃ task, (s.phase task).command = some command) ∨ command ∈ s.unanswered

/-- The command that an event issues. -/
def AgentSystem.issues (s : AgentSystem) : CommandEvent → Option Command
  | .issue task uxBrokerNumber =>
      if task ≠ s.xMQTTTaskHandle then some (s.nextCommand task uxBrokerNumber) else none
  | _ => none

theorem SendPhase.command_of_awaited (h : phase.awaited = some command) :
    phase.command = some command := by
  cases phase with
  | outside => cases h
  | identified _ => cases h
  | sending _ => cases h
  | sent _ => exact h
  | waiting _ => exact h

/-- A task that goes on is occupied with what it was occupied with, if with anything. -/
theorem command_of_update {phases : TaskHandle → SendPhase} {holder : TaskHandle}
    (hphase : phase.command = some command → (phases task).command = some command)
    (h : (Function.update phases task phase holder).command = some command) :
    (phases holder).command = some command := by
  by_cases hholder : holder = task
  · subst hholder
    rw [Function.update_self] at h
    exact hphase h
  · rwa [Function.update_of_ne hholder] at h

@[simp] theorem issue_unanswered (uxBrokerNumber : Fin maxBrokers) :
    (s.issueCommand task uxBrokerNumber).unanswered = s.unanswered := by
  unfold AgentSystem.issueCommand AgentSystem.enter
  rfl

@[simp] theorem issue_phase (uxBrokerNumber : Fin maxBrokers) :
    (s.issueCommand task uxBrokerNumber).phase =
      Function.update s.phase task (.identified (s.nextCommand task uxBrokerNumber)) := by
  unfold AgentSystem.issueCommand AgentSystem.enter
  rfl

@[simp] theorem issue_notification (uxBrokerNumber : Fin maxBrokers) :
    (s.issueCommand task uxBrokerNumber).notification = s.notification := by
  unfold AgentSystem.issueCommand AgentSystem.enter
  rfl

@[simp] theorem issue_handle (uxBrokerNumber : Fin maxBrokers) :
    (s.issueCommand task uxBrokerNumber).xMQTTTaskHandle = s.xMQTTTaskHandle := by
  cases s
  rfl

@[simp] theorem issue_stored (uxBrokerNumber : Fin maxBrokers) :
    (s.issueCommand task uxBrokerNumber).stored = s.stored := by
  cases s
  rfl

@[simp] theorem issue_connections (uxBrokerNumber : Fin maxBrokers) :
    (s.issueCommand task uxBrokerNumber).xMQTTConnections = s.xMQTTConnections := by
  cases s
  rfl

@[simp] theorem issue_issued (uxBrokerNumber : Fin maxBrokers) :
    (s.issueCommand task uxBrokerNumber).issued = s.issued + 1 := by
  simp only [AgentSystem.issueCommand]

@[simp] theorem issue_identifier (uxBrokerNumber : Fin maxBrokers) :
    (s.issueCommand task uxBrokerNumber).ulQueueMessageIdentifier = s.nextIdentifier := by
  simp only [AgentSystem.issueCommand]

@[simp] theorem notify_task_phase (data : MQTTNotificationData) (code : MQTTNotifyCode)
    (uxStatus : Bool) : (s.notifyTask data code uxStatus).phase = s.phase := by
  unfold AgentSystem.notifyTask
  split <;> rfl

@[simp] theorem notify_task_unanswered (data : MQTTNotificationData) (code : MQTTNotifyCode)
    (uxStatus : Bool) : (s.notifyTask data code uxStatus).unanswered = s.unanswered := by
  unfold AgentSystem.notifyTask
  split <;> rfl

@[simp] theorem notify_task_handle (data : MQTTNotificationData) (code : MQTTNotifyCode)
    (uxStatus : Bool) : (s.notifyTask data code uxStatus).xMQTTTaskHandle =
      s.xMQTTTaskHandle := by
  unfold AgentSystem.notifyTask
  split <;> rfl

@[simp] theorem notify_task_issued (data : MQTTNotificationData) (code : MQTTNotifyCode)
    (uxStatus : Bool) : (s.notifyTask data code uxStatus).issued = s.issued := by
  unfold AgentSystem.notifyTask
  split <;> rfl

@[simp] theorem notify_task_identifier (data : MQTTNotificationData) (code : MQTTNotifyCode)
    (uxStatus : Bool) : (s.notifyTask data code uxStatus).ulQueueMessageIdentifier =
      s.ulQueueMessageIdentifier := by
  unfold AgentSystem.notifyTask
  split <;> rfl

@[simp] theorem release_handle : (s.release command).xMQTTTaskHandle = s.xMQTTTaskHandle := by
  unfold AgentSystem.release
  split <;> rfl

@[simp] theorem release_issued : (s.release command).issued = s.issued := by
  unfold AgentSystem.release
  split <;> rfl

@[simp] theorem release_identifier :
    (s.release command).ulQueueMessageIdentifier = s.ulQueueMessageIdentifier := by
  unfold AgentSystem.release
  split <;> rfl

@[simp] theorem release_phase : (s.release command).phase = s.phase := by
  unfold AgentSystem.release
  split <;> rfl

@[simp] theorem release_notification : (s.release command).notification = s.notification := by
  unfold AgentSystem.release
  split <;> rfl

@[simp] theorem release_unanswered :
    (s.release command).unanswered = s.unanswered.filter (· ≠ command) := by
  unfold AgentSystem.release
  split <;> rfl

/-- What the tasks have pending after an answer to a command. -/
theorem answered_notification {data : MQTTNotificationData} {code : MQTTNotifyCode}
    {uxStatus : Bool} (hdata : data = command.xNotificationData) :
    ((s.notifyTask data code uxStatus).release command).notification =
      Function.update s.notification command.xTaskToNotify
        ((s.notification command.xTaskToNotify).xTaskNotify (data.outcome code uxStatus)
          .setValueWithoutOverwrite) := by
  subst hdata
  rw [release_notification]
  rfl

/-! ## Cases of a step -/

/-- What each event does when it can happen. -/
inductive CommandStep (s : AgentSystem) : CommandEvent → AgentSystem → Prop where
  | own {task : TaskHandle} {notification : TaskNotification} : s.phase task = .outside →
      CommandStep s (.own task notification) (s.setNotification task notification)
  | notify {task : TaskHandle} {ulValue : UInt32} {eAction : NotifyAction} :
      CommandStep s (.notify task ulValue eAction)
        (s.setNotification task ((s.notification task).xTaskNotify ulValue eAction))
  | refuse {uxBrokerNumber : Fin maxBrokers} :
      CommandStep s (.issue s.xMQTTTaskHandle uxBrokerNumber) s
  | issue {task : TaskHandle} {uxBrokerNumber : Fin maxBrokers} :
      s.phase task = .outside → task ≠ s.xMQTTTaskHandle →
      CommandStep s (.issue task uxBrokerNumber) (s.issueCommand task uxBrokerNumber)
  | clear {task : TaskHandle} {command : Command} : s.phase task = .identified command →
      CommandStep s (.clear task)
        ((s.setNotification task (s.notification task).xTaskNotifyStateClear).enter task
          (.sending command))
  | send {task : TaskHandle} {command : Command} : s.phase task = .sending command →
      CommandStep s (.send task true)
        { s.enter task (.sent command) with unanswered := command :: s.unanswered }
  | giveUp {task : TaskHandle} {command : Command} : s.phase task = .sending command →
      CommandStep s (.send task false) (s.enter task .outside)
  | wait {task : TaskHandle} {command : Command} : s.phase task = .sent command →
      CommandStep s (.wait task)
        ((s.setNotification task (s.notification task).enterWait).enter task (.waiting command))
  | wake {task : TaskHandle} {command : Command} : s.phase task = .waiting command →
      CommandStep s (.wake task) (s.leaveWait task command)
  | store {command : Command} {x : Fin maxParallelOps} :
      command ∈ s.unanswered → s.stored command = none →
      (s.entry command.uxBrokerNumber x).xTaskToNotify = none →
      CommandStep s (.store command)
        { s.setEntry command.uxBrokerNumber x command.xNotificationData with
          stored := Function.update s.stored command (some x) }
  | answer {command : Command} {code : MQTTNotifyCode} {uxStatus : Bool} :
      command ∈ s.unanswered →
      CommandStep s (.answer command code uxStatus)
        ((s.notifyTask command.xNotificationData code uxStatus).release command)
  | acknowledge {uxBrokerNumber : Fin maxBrokers} {usPacketIdentifier : UInt16}
      {command : Command} {code : MQTTNotifyCode} {uxStatus : Bool} {x : Fin maxParallelOps} :
      s.StoredIn command uxBrokerNumber x →
      CommandStep s (.acknowledge uxBrokerNumber usPacketIdentifier command code uxStatus)
        ((s.notifyTask (s.entry uxBrokerNumber x) code uxStatus).release command)
  | disconnect {uxBrokerNumber : Fin maxBrokers} {x : Fin maxParallelOps} {command : Command} :
      s.StoredIn command uxBrokerNumber x →
      CommandStep s (.disconnect uxBrokerNumber x command)
        ((s.notifyTask (s.entry uxBrokerNumber x) .clientGotDisconnected false).release command)

theorem command_step (h : commandStep s event = some s') : CommandStep s event s' := by
  unfold commandStep at h
  cases event with
  | own task notification =>
      simp only at h
      split_ifs at h with howns
      cases h
      exact .own howns.1
  | notify task ulValue eAction =>
      cases h
      exact .notify
  | issue task uxBrokerNumber =>
      simp only at h
      split_ifs at h with houtside hother
      · cases h
        exact .issue houtside hother
      · cases h
        rw [not_not.mp hother]
        exact .refuse
  | clear task =>
      simp only at h
      split at h
      · next command hphase =>
          cases h
          exact .clear hphase
      · cases h
  | send task passed =>
      simp only at h
      split at h
      · next command hphase =>
          cases passed with
          | true =>
              cases h
              exact .send hphase
          | false =>
              cases h
              exact .giveUp hphase
      · cases h
  | wait task =>
      simp only at h
      split at h
      · next command hphase =>
          cases h
          exact .wait hphase
      · cases h
  -- The task wakes only if its notification is there.
  | wake task =>
      simp only at h
      split at h
      · next command hphase =>
          split_ifs at h
          cases h
          exact .wake hphase
      · cases h
  | store command =>
      simp only at h
      split_ifs at h with hunstored
      unfold prvStoreNotificationData at h
      cases hfree : firstIndex (fun entry => entry.xTaskToNotify.isNone)
          (s.xMQTTConnections command.uxBrokerNumber).xWaitingTasks with
      | none =>
          rw [hfree] at h
          cases h
      | some x =>
          rw [hfree] at h
          cases h
          exact .store hunstored.1 hunstored.2 (Option.isNone_iff_eq_none.mp
            (firstIndex_satisfies hfree))
  | answer command code uxStatus =>
      simp only at h
      split_ifs at h with hunanswered
      cases h
      exact .answer hunanswered
  | acknowledge uxBrokerNumber usPacketIdentifier command code uxStatus =>
      obtain ⟨x, -, h⟩ := Option.bind_eq_some_iff.mp h
      split_ifs at h with hstored
      cases h
      exact .acknowledge hstored
  | disconnect uxBrokerNumber x command =>
      simp only at h
      split_ifs at h with hstored
      cases h
      exact .disconnect hstored

/-! ## Numbered commands -/

/-- What a task is occupied with after a step it was occupied with before, or it has just issued
it. -/
theorem occupied_of_step {holder : TaskHandle} (h : CommandStep s event s')
    (hholder : (s'.phase holder).command = some command) :
    (s.phase holder).command = some command ∨
      s.issues event = some command ∧ command.xTaskToNotify = holder := by
  cases h with
  | own _ => exact .inl hholder
  | notify => exact .inl hholder
  | refuse => exact .inl hholder
  | @issue task uxBrokerNumber _ hother =>
      rw [issue_phase] at hholder
      by_cases hself : holder = task
      · subst hself
        rw [Function.update_self] at hholder
        cases hholder
        exact .inr ⟨if_pos hother, rfl⟩
      · rw [Function.update_of_ne hself] at hholder
        exact .inl hholder
  | clear hphase => exact .inl (command_of_update (fun h => by rw [hphase]; exact h) hholder)
  | send hphase => exact .inl (command_of_update (fun h => by rw [hphase]; exact h) hholder)
  | giveUp _ => exact .inl (command_of_update (fun h => by cases h) hholder)
  | wait hphase => exact .inl (command_of_update (fun h => by rw [hphase]; exact h) hholder)
  | wake hphase =>
      refine .inl (command_of_update (fun h => ?_) hholder)
      split_ifs at h
      · cases h
      · rw [hphase]
        exact h
  | store _ _ _ => exact .inl hholder
  | answer _ =>
      rw [release_phase, notify_task_phase] at hholder
      exact .inl hholder
  | acknowledge _ =>
      rw [release_phase, notify_task_phase] at hholder
      exact .inl hholder
  | disconnect _ =>
      rw [release_phase, notify_task_phase] at hholder
      exact .inl hholder

/-- What is unanswered after a step was so before, or its task has just sent it. -/
theorem unanswered_of_step (h : CommandStep s event s') (hmem : command ∈ s'.unanswered) :
    s.UnderWay command := by
  cases h with
  | own _ => exact .inr hmem
  | notify => exact .inr hmem
  | refuse => exact .inr hmem
  | issue _ _ =>
      rw [issue_unanswered] at hmem
      exact .inr hmem
  | clear _ => exact .inr hmem
  | send hphase =>
      rcases List.mem_cons.mp hmem with rfl | hmem
      · exact .inl ⟨_, congrArg SendPhase.command hphase⟩
      · exact .inr hmem
  | giveUp _ => exact .inr hmem
  | wait _ => exact .inr hmem
  | wake _ => exact .inr hmem
  | store _ _ _ => exact .inr hmem
  | answer _ =>
      rw [release_unanswered, notify_task_unanswered] at hmem
      exact .inr (List.mem_of_mem_filter hmem)
  | acknowledge _ =>
      rw [release_unanswered, notify_task_unanswered] at hmem
      exact .inr (List.mem_of_mem_filter hmem)
  | disconnect _ =>
      rw [release_unanswered, notify_task_unanswered] at hmem
      exact .inr (List.mem_of_mem_filter hmem)

/-- What is under way after a step was so before or has just been issued. -/
theorem under_way_of_step (h : CommandStep s event s') (hunder : s'.UnderWay command) :
    s.UnderWay command ∨ s.issues event = some command := by
  rcases hunder with ⟨holder, hholder⟩ | hmem
  · rcases occupied_of_step h hholder with hbefore | ⟨hissued, -⟩
    · exact .inl (.inl ⟨holder, hbefore⟩)
    · exact .inr hissued
  · exact .inl (unanswered_of_step h hmem)

/-- A step counts the command it issues, if any, and goes on to the next identifier. -/
theorem counter_of_step (h : CommandStep s event s') :
    (s.issues event = none ∧ s'.issued = s.issued ∧
        s'.ulQueueMessageIdentifier = s.ulQueueMessageIdentifier) ∨
      (∃ task uxBrokerNumber, s.issues event = some (s.nextCommand task uxBrokerNumber)) ∧
        s'.issued = s.issued + 1 ∧ s'.ulQueueMessageIdentifier = s.nextIdentifier := by
  cases h with
  | @issue task uxBrokerNumber _ hother =>
      exact .inr ⟨⟨task, uxBrokerNumber, if_pos hother⟩, issue_issued _, issue_identifier _⟩
  | refuse => exact .inl ⟨if_neg (not_not.mpr rfl), rfl, rfl⟩
  | answer _ => exact .inl ⟨rfl, by simp, by simp⟩
  | acknowledge _ => exact .inl ⟨rfl, by simp, by simp⟩
  | disconnect _ => exact .inl ⟨rfl, by simp, by simp⟩
  | own _ => exact .inl ⟨rfl, rfl, rfl⟩
  | notify => exact .inl ⟨rfl, rfl, rfl⟩
  | clear _ => exact .inl ⟨rfl, rfl, rfl⟩
  | send _ => exact .inl ⟨rfl, rfl, rfl⟩
  | giveUp _ => exact .inl ⟨rfl, rfl, rfl⟩
  | wait _ => exact .inl ⟨rfl, rfl, rfl⟩
  | wake _ => exact .inl ⟨rfl, rfl, rfl⟩
  | store _ _ _ => exact .inl ⟨rfl, rfl, rfl⟩

/-- The commands under way have the identifiers of their numbers, and a task is occupied with a
command of its own. -/
structure Numbered (s : AgentSystem) : Prop where
  next : s.ulQueueMessageIdentifier = identifierOf s.issued
  number_lt : ∀ command, s.UnderWay command → command.number < s.issued
  identifier : ∀ command, s.UnderWay command →
    command.ulMessageIdentifier = identifierOf command.number
  task : ∀ task command, (s.phase task).command = some command → command.xTaskToNotify = task

theorem numbered_initial (xMQTTTaskHandle : TaskHandle) :
    Numbered (AgentSystem.initial xMQTTTaskHandle) := by
  have hnone : ∀ command, ¬ (AgentSystem.initial xMQTTTaskHandle).UnderWay command := by
    rintro command (⟨holder, hholder⟩ | hmem)
    · cases hholder
    · cases hmem
  have hfirst : messageIdentifierMin = identifierOf 0 := by
    apply UInt32.toNat_inj.mp
    rw [identifier_of_to_nat]
    rfl
  exact ⟨hfirst, fun command h => absurd h (hnone command),
    fun command h => absurd h (hnone command), fun _ _ h => by cases h⟩

theorem Numbered.step (hnumbered : Numbered s) (h : CommandStep s event s') : Numbered s' := by
  have htask : ∀ task command, (s'.phase task).command = some command →
      command.xTaskToNotify = task := by
    intro task command hcommand
    rcases occupied_of_step h hcommand with hbefore | ⟨-, hissued⟩
    · exact hnumbered.task task command hbefore
    · exact hissued
  rcases counter_of_step h with ⟨hissues, hcount, hnext⟩ |
      ⟨⟨task, uxBrokerNumber, hissues⟩, hcount, hnext⟩
  · have hbefore : ∀ command, s'.UnderWay command → s.UnderWay command := by
      intro command hunder
      rcases under_way_of_step h hunder with hbefore | hissued
      · exact hbefore
      · rw [hissues] at hissued
        cases hissued
    refine ⟨?_, ?_, ?_, htask⟩
    · rw [hnext, hcount]
      exact hnumbered.next
    · intro command hunder
      rw [hcount]
      exact hnumbered.number_lt command (hbefore command hunder)
    · intro command hunder
      exact hnumbered.identifier command (hbefore command hunder)
  · refine ⟨?_, ?_, ?_, htask⟩
    · rw [hnext, hcount]
      exact next_identifier hnumbered.next
    · intro command hunder
      rw [hcount]
      rcases under_way_of_step h hunder with hbefore | hissued
      · exact Nat.lt_succ_of_lt (hnumbered.number_lt command hbefore)
      · cases hissues.symm.trans hissued
        exact Nat.lt_succ_self _
    · intro command hunder
      rcases under_way_of_step h hunder with hbefore | hissued
      · exact hnumbered.identifier command hbefore
      · cases hissues.symm.trans hissued
        exact hnumbered.next

/-! ## Entries of the waiting tasks -/

/-- The entries in use are those of unanswered commands. -/
structure Accounted (s : AgentSystem) : Prop where
  stored : ∀ command x, s.stored command = some x → command ∈ s.unanswered ∧
    s.entry command.uxBrokerNumber x = command.xNotificationData
  entries : ∀ uxBrokerNumber x, (s.entry uxBrokerNumber x).xTaskToNotify ≠ none →
    ∃ command, s.StoredIn command uxBrokerNumber x
  unique : ∀ command other uxBrokerNumber x, s.StoredIn command uxBrokerNumber x →
    s.StoredIn other uxBrokerNumber x → command = other

theorem accounted_initial (xMQTTTaskHandle : TaskHandle) :
    Accounted (AgentSystem.initial xMQTTTaskHandle) := by
  refine ⟨fun _ _ h => (by cases h), fun uxBrokerNumber x h => absurd ?_ h,
    fun _ _ _ _ h => (by cases h.2)⟩
  show (MQTTBrokerConnection.initial.xWaitingTasks[x]).xTaskToNotify = none
  unfold MQTTBrokerConnection.initial
  rw [Fin.getElem_fin, Vector.getElem_replicate]

theorem set_entry_entry (uxBrokerNumber : Fin maxBrokers) (x : Fin maxParallelOps)
    (data : MQTTNotificationData) (broker : Fin maxBrokers) (y : Fin maxParallelOps) :
    (s.setEntry uxBrokerNumber x data).entry broker y =
      if broker = uxBrokerNumber ∧ y = x then data else s.entry broker y := by
  unfold AgentSystem.entry AgentSystem.setEntry
  by_cases hbroker : broker = uxBrokerNumber
  · subst hbroker
    simp only [Function.update_self]
    rw [getElem_set]
    simp
  · rw [if_neg fun h => hbroker h.1]
    simp only
    rw [Function.update_of_ne hbroker]

/-- Nothing happens to the entries, and no command is answered. -/
theorem Accounted.same (h : Accounted s) (hstored : s'.stored = s.stored)
    (hconnections : s'.xMQTTConnections = s.xMQTTConnections)
    (hunanswered : ∀ command ∈ s.unanswered, command ∈ s'.unanswered) : Accounted s' := by
  have hentry : s'.entry = s.entry := by
    unfold AgentSystem.entry
    rw [hconnections]
  have hin : s'.StoredIn = s.StoredIn := by
    unfold AgentSystem.StoredIn
    rw [hstored]
  refine ⟨?_, ?_, ?_⟩
  · intro command x hx
    rw [hstored] at hx
    rw [hentry]
    exact ⟨hunanswered _ (h.stored command x hx).1, (h.stored command x hx).2⟩
  · rw [hentry, hin]
    exact h.entries
  · rw [hin]
    exact h.unique

/-- The data of a command is stored in a free entry. -/
theorem Accounted.store {x : Fin maxParallelOps} (h : Accounted s)
    (hmem : command ∈ s.unanswered) (hunstored : s.stored command = none)
    (hfree : (s.entry command.uxBrokerNumber x).xTaskToNotify = none) :
    Accounted { s.setEntry command.uxBrokerNumber x command.xNotificationData with
      stored := Function.update s.stored command (some x) } := by
  -- No command is stored in the entry yet.
  have hempty : ∀ other, ¬ s.StoredIn other command.uxBrokerNumber x := by
    rintro other ⟨hbroker, hother⟩
    have hdata := (h.stored other x hother).2
    rw [hbroker] at hdata
    rw [hdata] at hfree
    cases hfree
  have hentry := set_entry_entry command.uxBrokerNumber x command.xNotificationData (s := s)
  have hstored : ∀ other y, Function.update s.stored command (some x) other = some y →
      other = command ∧ y = x ∨ other ≠ command ∧ s.stored other = some y := by
    intro other y hy
    by_cases heq : other = command
    · subst heq
      rw [Function.update_self] at hy
      exact .inl ⟨rfl, (Option.some.inj hy).symm⟩
    · rw [Function.update_of_ne heq] at hy
      exact .inr ⟨heq, hy⟩
  refine ⟨?_, ?_, ?_⟩
  · intro other y hy
    rcases hstored other y hy with ⟨rfl, rfl⟩ | ⟨-, hother⟩
    · exact ⟨hmem, (hentry _ _).trans (if_pos ⟨rfl, rfl⟩)⟩
    · refine ⟨(h.stored other y hother).1, (hentry _ _).trans ?_⟩
      rw [if_neg, (h.stored other y hother).2]
      rintro ⟨hbroker, rfl⟩
      exact hempty other ⟨hbroker, hother⟩
  · intro broker y hy
    have hy : ((s.setEntry command.uxBrokerNumber x command.xNotificationData).entry
      broker y).xTaskToNotify ≠ none := hy
    rw [hentry] at hy
    split_ifs at hy with hsame
    · exact ⟨command, hsame.1.symm, by rw [hsame.2]; exact Function.update_self ..⟩
    · obtain ⟨other, hbroker, hother⟩ := h.entries broker y hy
      refine ⟨other, hbroker, (Function.update_of_ne ?_ ..).trans hother⟩
      rintro rfl
      cases hunstored.symm.trans hother
  · rintro first second broker y ⟨hfirst, hfirstIn⟩ ⟨hsecond, hsecondIn⟩
    rcases hstored first y hfirstIn with ⟨rfl, rfl⟩ | ⟨-, hfirstOld⟩
    · rcases hstored second y hsecondIn with ⟨rfl, -⟩ | ⟨-, hsecondOld⟩
      · rfl
      · exact absurd ⟨hsecond.trans hfirst.symm, hsecondOld⟩ (hempty second)
    · rcases hstored second y hsecondIn with ⟨rfl, rfl⟩ | ⟨-, hsecondOld⟩
      · exact absurd ⟨hfirst.trans hsecond.symm, hfirstOld⟩ (hempty first)
      · exact h.unique first second broker y ⟨hfirst, hfirstOld⟩ ⟨hsecond, hsecondOld⟩

/-- A command is answered. -/
theorem Accounted.release (h : Accounted s) : Accounted (s.release command) := by
  have hstored : ∀ other y, Function.update s.stored command none other = some y →
      other ≠ command ∧ s.stored other = some y := by
    intro other y hy
    by_cases heq : other = command
    · subst heq
      rw [Function.update_self] at hy
      cases hy
    · rw [Function.update_of_ne heq] at hy
      exact ⟨heq, hy⟩
  have hremains : ∀ other ∈ s.unanswered, other ≠ command →
      other ∈ s.unanswered.filter (· ≠ command) :=
    fun other hmem hne => List.mem_filter.mpr ⟨hmem, decide_eq_true hne⟩
  unfold AgentSystem.release
  -- A command that is not stored leaves the entries alone. Otherwise its entry is freed, and no
  -- other command has it.
  cases hplace : s.stored command with
  | none =>
      refine ⟨?_, ?_, ?_⟩
      · intro other y hy
        obtain ⟨hne, hother⟩ := hstored other y hy
        exact ⟨hremains other (h.stored other y hother).1 hne, (h.stored other y hother).2⟩
      · intro broker y hy
        obtain ⟨other, hbroker, hother⟩ := h.entries broker y hy
        refine ⟨other, hbroker, (Function.update_of_ne ?_ ..).trans hother⟩
        rintro rfl
        cases hplace.symm.trans hother
      · rintro first second broker y ⟨hfirst, hfirstIn⟩ ⟨hsecond, hsecondIn⟩
        exact h.unique first second broker y ⟨hfirst, (hstored first y hfirstIn).2⟩
          ⟨hsecond, (hstored second y hsecondIn).2⟩
  | some x =>
      have hentry := set_entry_entry command.uxBrokerNumber x
        { s.entry command.uxBrokerNumber x with xTaskToNotify := none } (s := s)
      refine ⟨?_, ?_, ?_⟩
      · intro other y hy
        obtain ⟨hne, hother⟩ := hstored other y hy
        refine ⟨hremains other (h.stored other y hother).1 hne, (hentry _ _).trans ?_⟩
        rw [if_neg, (h.stored other y hother).2]
        rintro ⟨hbroker, rfl⟩
        exact hne (h.unique other command command.uxBrokerNumber y ⟨hbroker, hother⟩
          ⟨rfl, hplace⟩)
      · intro broker y hy
        have hy : ((s.setEntry command.uxBrokerNumber x
          { s.entry command.uxBrokerNumber x with xTaskToNotify := none }).entry
            broker y).xTaskToNotify ≠ none := hy
        rw [hentry] at hy
        split_ifs at hy with hsame
        · exact absurd rfl hy
        · obtain ⟨other, hbroker, hother⟩ := h.entries broker y hy
          refine ⟨other, hbroker, (Function.update_of_ne ?_ ..).trans hother⟩
          rintro rfl
          exact hsame ⟨hbroker.symm, Option.some.inj (hother.symm.trans hplace)⟩
      · rintro first second broker y ⟨hfirst, hfirstIn⟩ ⟨hsecond, hsecondIn⟩
        exact h.unique first second broker y ⟨hfirst, (hstored first y hfirstIn).2⟩
          ⟨hsecond, (hstored second y hsecondIn).2⟩

theorem Accounted.notify_task (h : Accounted s) (data : MQTTNotificationData)
    (code : MQTTNotifyCode) (uxStatus : Bool) : Accounted (s.notifyTask data code uxStatus) := by
  refine h.same ?_ ?_ fun command hmem => ?_
  · unfold AgentSystem.notifyTask
    split <;> rfl
  · unfold AgentSystem.notifyTask
    split <;> rfl
  · rw [notify_task_unanswered]
    exact hmem

theorem Accounted.step (haccounted : Accounted s) (h : CommandStep s event s') :
    Accounted s' := by
  cases h with
  | own _ => exact haccounted.same rfl rfl fun _ hmem => hmem
  | notify => exact haccounted.same rfl rfl fun _ hmem => hmem
  | refuse => exact haccounted
  | issue _ _ =>
      refine haccounted.same (issue_stored _) (issue_connections _) fun command hmem => ?_
      rw [issue_unanswered]
      exact hmem
  | clear _ => exact haccounted.same rfl rfl fun _ hmem => hmem
  | send _ => exact haccounted.same rfl rfl fun _ hmem => List.mem_cons_of_mem _ hmem
  | giveUp _ => exact haccounted.same rfl rfl fun _ hmem => hmem
  | wait _ => exact haccounted.same rfl rfl fun _ hmem => hmem
  | wake _ => exact haccounted.same rfl rfl fun _ hmem => hmem
  | store hmem hunstored hfree => exact haccounted.store hmem hunstored hfree
  | answer _ => exact (haccounted.notify_task _ _ _).release
  | acknowledge _ => exact (haccounted.notify_task _ _ _).release
  | disconnect _ => exact (haccounted.notify_task _ _ _).release

/-! ## A command to start with -/

/-- The first broker. -/
def firstBroker : Fin maxBrokers := ⟨0, by decide⟩

/-- The first command, issued by task 1. -/
def firstCommand : Command := ⟨0, firstBroker, 1, messageIdentifierMin⟩

end TivaAws.Agent
