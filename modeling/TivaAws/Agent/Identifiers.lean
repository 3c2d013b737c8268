import TivaAws.Agent.Commands

/-!
# Message identifiers of commands under way

The identifier of a command is a counter that goes round after 65534 commands, without looking at
the commands that still wait for their reply. Two commands under way have the same identifier when
one is issued a multiple of 65534 commands after the other, and only then. As long as that does not
happen, a packet identifier leads to the entry of the command it has been given to.
-/

namespace TivaAws.Agent

open Rtos Runs Table

variable {s s' : AgentSystem} {event : CommandEvent} {command other : Command}

/-- Commands under way have different identifiers, no packet identifier is zero, and with the packet
identifier of a command the notification data of that command is found. -/
structure AgentSystem.IdentifiersApart (s : AgentSystem) : Prop where
  distinct : ∀ command other, s.UnderWay command → s.UnderWay other → command ≠ other →
    command.ulMessageIdentifier ≠ other.ulMessageIdentifier
  nonzero : ∀ command, s.UnderWay command → command.ulMessageIdentifier ≠ 0 ∧
    command.xNotificationData.packetIdentifier ≠ 0
  retrieved : ∀ command x, s.stored command = some x →
    prvRetrieveNotificationData command.xNotificationData.packetIdentifier
        (s.xMQTTConnections command.uxBrokerNumber) = some x ∧
      s.entry command.uxBrokerNumber x = command.xNotificationData

/-- No command under way was issued a multiple of 65534 commands before the one that is issued. -/
def AgentSystem.IssuesApart (s : AgentSystem) (event : CommandEvent) : Prop :=
  ∀ issued, s.issues event = some issued →
    ∀ command, s.UnderWay command → ¬ 65534 ∣ issued.number - command.number

/-! ## Invariant -/

theorem Numbered.nonzero (hnumbered : Numbered s) (hunder : s.UnderWay command) :
    command.ulMessageIdentifier ≠ 0 ∧ command.xNotificationData.packetIdentifier ≠ 0 := by
  have hidentifier := hnumbered.identifier command hunder
  constructor
  · intro hzero
    have hvalue := identifier_of_to_nat command.number
    rw [← hidentifier, hzero] at hvalue
    exact absurd hvalue (by rw [UInt32.toNat_zero]; omega)
  · intro hzero
    have hvalue := extract_identifier_of command.number
    rw [← hidentifier] at hvalue
    have hextract : messageIdentifierExtract command.ulMessageIdentifier = 0 := hzero
    rw [hextract] at hvalue
    exact absurd hvalue (by rw [UInt16.toNat_zero]; omega)

/-- Commands under way with the same packet identifier have the same identifier. -/
theorem Numbered.same_identifier (hnumbered : Numbered s) (hunder : s.UnderWay command)
    (hother : s.UnderWay other)
    (hsame : command.xNotificationData.packetIdentifier =
      other.xNotificationData.packetIdentifier) :
    command.ulMessageIdentifier = other.ulMessageIdentifier := by
  have hidentifier := hnumbered.identifier command hunder
  have hotherIdentifier := hnumbered.identifier other hother
  have hsame : messageIdentifierExtract command.ulMessageIdentifier =
      messageIdentifierExtract other.ulMessageIdentifier := hsame
  rw [hidentifier, hotherIdentifier] at hsame ⊢
  apply identifier_of_inj.mpr
  have hvalues := congrArg UInt16.toNat hsame
  rw [extract_identifier_of, extract_identifier_of] at hvalues
  omega

/-- With distinct identifiers the data of a command is found by its packet identifier. -/
theorem Accounted.retrieved {x : Fin maxParallelOps} (haccounted : Accounted s)
    (hnumbered : Numbered s)
    (hdistinct : ∀ command other, s.UnderWay command → s.UnderWay other → command ≠ other →
      command.ulMessageIdentifier ≠ other.ulMessageIdentifier)
    (hstored : s.stored command = some x) :
    prvRetrieveNotificationData command.xNotificationData.packetIdentifier
        (s.xMQTTConnections command.uxBrokerNumber) = some x ∧
      s.entry command.uxBrokerNumber x = command.xNotificationData := by
  obtain ⟨hmem, hdata⟩ := haccounted.stored command x hstored
  refine ⟨?_, hdata⟩
  have hwaits : MQTTNotificationData.waitsFor command.xNotificationData.packetIdentifier
      (s.entry command.uxBrokerNumber x) = true := by
    rw [hdata]
    exact Bool.and_eq_true_iff.mpr ⟨rfl, beq_self_eq_true _⟩
  obtain ⟨y, hfound⟩ := firstIndex_isSome hwaits
  -- The entry that is found belongs to a command with the same packet identifier.
  have hsatisfies : MQTTNotificationData.waitsFor command.xNotificationData.packetIdentifier
      (s.entry command.uxBrokerNumber y) = true := firstIndex_satisfies hfound
  obtain ⟨htask, hpacket⟩ := Bool.and_eq_true_iff.mp hsatisfies
  obtain ⟨other, hin⟩ := haccounted.entries command.uxBrokerNumber y
    (Option.isSome_iff_ne_none.mp htask)
  obtain ⟨hotherMem, hotherData⟩ := haccounted.stored other y hin.2
  have hpacket : command.xNotificationData.packetIdentifier =
      (s.entry command.uxBrokerNumber y).packetIdentifier := beq_iff_eq.mp hpacket
  rw [← hin.1, hotherData] at hpacket
  have hsame := hnumbered.same_identifier (.inr hmem) (.inr hotherMem) hpacket
  have heq : command = other :=
    not_not.mp fun hne => hdistinct command other (.inr hmem) (.inr hotherMem) hne hsame
  subst heq
  rw [← Option.some.inj (hin.2.symm.trans hstored)]
  exact hfound

/-- Distinct identifiers are all that has to be kept. -/
theorem identifiers_apart_iff (hnumbered : Numbered s) (haccounted : Accounted s) :
    s.IdentifiersApart ↔ ∀ command other, s.UnderWay command → s.UnderWay other →
      command ≠ other → command.ulMessageIdentifier ≠ other.ulMessageIdentifier :=
  ⟨fun h => h.distinct, fun hdistinct => ⟨hdistinct, fun _ => hnumbered.nonzero,
    fun _ _ => haccounted.retrieved hnumbered hdistinct⟩⟩

/-! ## Issuing -/

/-- What is under way when a command is issued stays under way, and so does the new command. -/
theorem under_way_of_issue {task : TaskHandle} {uxBrokerNumber : Fin maxBrokers}
    (houtside : s.phase task = .outside) :
    (s.issueCommand task uxBrokerNumber).UnderWay (s.nextCommand task uxBrokerNumber) ∧
      ∀ command, s.UnderWay command → (s.issueCommand task uxBrokerNumber).UnderWay command := by
  constructor
  · refine .inl ⟨task, ?_⟩
    rw [issue_phase, Function.update_self]
    rfl
  · rintro command (⟨holder, hholder⟩ | hmem)
    · refine .inl ⟨holder, ?_⟩
      rw [issue_phase, Function.update_of_ne]
      · exact hholder
      · rintro rfl
        rw [houtside] at hholder
        cases hholder
    · refine .inr ?_
      rw [issue_unanswered]
      exact hmem

/-- A new command has the identifier of a command under way just when their numbers differ by a
multiple of 65534. -/
theorem Numbered.next_identifier_ne {task : TaskHandle} {uxBrokerNumber : Fin maxBrokers}
    (hnumbered : Numbered s) (hunder : s.UnderWay command) :
    command.ulMessageIdentifier ≠ (s.nextCommand task uxBrokerNumber).ulMessageIdentifier ↔
      ¬ 65534 ∣ (s.nextCommand task uxBrokerNumber).number - command.number := by
  have hlt := hnumbered.number_lt command hunder
  show command.ulMessageIdentifier ≠ s.ulQueueMessageIdentifier ↔
    ¬ 65534 ∣ s.issued - command.number
  rw [hnumbered.identifier command hunder, hnumbered.next, Ne, identifier_of_inj]
  omega

/-- A step keeps the identifiers apart just when the command it issues is apart. -/
theorem identifiers_apart_exact (hnumbered : Numbered s) (haccounted : Accounted s)
    (hapart : s.IdentifiersApart) (h : CommandStep s event s') :
    s'.IdentifiersApart ↔ s.IssuesApart event := by
  rw [identifiers_apart_iff (hnumbered.step h) (haccounted.step h)]
  constructor
  · intro hdistinct issued hissues command hunder
    cases h with
    | @issue task uxBrokerNumber houtside hother =>
        cases (if_pos hother).symm.trans hissues
        obtain ⟨hnew, hold⟩ := @under_way_of_issue s task uxBrokerNumber houtside
        have hne : command ≠ s.nextCommand task uxBrokerNumber := by
          rintro rfl
          exact absurd (hnumbered.number_lt _ hunder) (Nat.lt_irrefl _)
        exact (hnumbered.next_identifier_ne hunder).mp
          (hdistinct command _ (hold command hunder) hnew hne)
    | refuse => cases (if_neg (not_not.mpr rfl)).symm.trans hissues
    | _ => cases hissues
  · intro hissuesApart command other hcommand hother hne
    -- A command that is new is the one that the step issues.
    have hnew : ∀ {command issued : Command}, s.UnderWay command →
        s.issues event = some issued →
        command.ulMessageIdentifier ≠ issued.ulMessageIdentifier := by
      intro command issued hunder hissued
      have happ := hissuesApart issued hissued command hunder
      rcases counter_of_step h with ⟨hnone, -⟩ | ⟨⟨task, uxBrokerNumber, hissues⟩, -⟩
      · cases hnone.symm.trans hissued
      · cases hissues.symm.trans hissued
        exact (hnumbered.next_identifier_ne hunder).mpr happ
    rcases under_way_of_step h hcommand with hbefore | hissued
    · rcases under_way_of_step h hother with hotherBefore | hotherIssued
      · exact hapart.distinct command other hbefore hotherBefore hne
      · exact hnew hbefore hotherIssued
    · rcases under_way_of_step h hother with hotherBefore | hotherIssued
      · exact (hnew hotherBefore hissued).symm
      · exact absurd (Option.some.inj (hissued.symm.trans hotherIssued)) hne

/-! ## Every run -/

/-- The identifiers of the commands under way stay apart in a run just when no command is issued a
multiple of 65534 commands after one that is still under way. -/
theorem identifiers_apart_run_iff (xMQTTTaskHandle : TaskHandle) (events : List CommandEvent) :
    Always commandStep AgentSystem.IdentifiersApart (.initial xMQTTTaskHandle) events ↔
      Throughout commandStep AgentSystem.IssuesApart (.initial xMQTTTaskHandle) events := by
  have hnumbered := numbered_initial xMQTTTaskHandle
  have haccounted := accounted_initial xMQTTTaskHandle
  refine always_iff_throughout (fun s => Numbered s ∧ Accounted s)
    (fun hinv _ _ h => ⟨hinv.1.step (command_step h), hinv.2.step (command_step h)⟩)
    (fun hinv hapart h => identifiers_apart_exact hinv.1 hinv.2 hapart (command_step h))
    ⟨hnumbered, haccounted⟩ ((identifiers_apart_iff hnumbered haccounted).mpr ?_)
  rintro command other (⟨holder, hholder⟩ | hmem)
  · cases hholder
  · cases hmem

/-! ## A command that waits for long -/

/-- Task 1 waits for the reply to its command. -/
def longWait : List CommandEvent :=
  [.issue 1 firstBroker, .clear 1, .send 1 true, .wait 1]

/-- A command of task 2. -/
def secondCommand (number : Nat) : Command :=
  ⟨number, firstBroker, 2, identifierOf number⟩

/-- Task 2 publishes a message and gets the reply. -/
def publishAndReturn (number : Nat) : List CommandEvent :=
  [.issue 2 firstBroker, .clear 2, .send 2 true, .wait 2,
    .answer (secondCommand number) .pubSent true, .wake 2]

/-- Task 1 waits for the reply to the first command, and task 2 has issued all others. -/
structure LongWait (number : Nat) (s : AgentSystem) : Prop where
  handle : s.xMQTTTaskHandle = 0
  identifier : s.ulQueueMessageIdentifier = identifierOf number
  issued : s.issued = number
  first : s.phase 1 = .waiting firstCommand
  second : s.phase 2 = .outside

/-- A notification that a task waits for after clearing the state is not pending. -/
theorem clear_enter_wait (notification : TaskNotification) :
    notification.xTaskNotifyStateClear.enterWait.ucNotifyState ≠ .received := by
  unfold TaskNotification.xTaskNotifyStateClear TaskNotification.enterWait
  cases h : notification.ucNotifyState <;> simp [h]

section Exchange

variable {task : TaskHandle} {command : Command}

theorem issue_can_happen {uxBrokerNumber : Fin maxBrokers}
    (houtside : s.phase task = .outside) (hother : task ≠ s.xMQTTTaskHandle) :
    commandStep s (.issue task uxBrokerNumber) = some (s.issueCommand task uxBrokerNumber) := by
  unfold commandStep
  simp only
  rw [if_pos houtside, if_pos hother]

theorem clear_can_happen (h : s.phase task = .identified command) :
    commandStep s (.clear task) =
      some ((s.setNotification task (s.notification task).xTaskNotifyStateClear).enter task
        (.sending command)) := by
  unfold commandStep
  simp only [h]

theorem send_can_happen (h : s.phase task = .sending command) :
    commandStep s (.send task true) =
      some { s.enter task (.sent command) with unanswered := command :: s.unanswered } := by
  unfold commandStep
  simp only [h]
  rfl

theorem wait_can_happen (h : s.phase task = .sent command) :
    commandStep s (.wait task) =
      some ((s.setNotification task (s.notification task).enterWait).enter task
        (.waiting command)) := by
  unfold commandStep
  simp only [h]

theorem answer_can_happen {code : MQTTNotifyCode} {uxStatus : Bool}
    (h : command ∈ s.unanswered) :
    commandStep s (.answer command code uxStatus) =
      some ((s.notifyTask command.xNotificationData code uxStatus).release command) :=
  if_pos h

theorem wake_can_happen (h : s.phase task = .waiting command)
    (hreceived : (s.notification task).ucNotifyState = .received) :
    commandStep s (.wake task) = some (s.leaveWait task command) := by
  unfold commandStep
  simp only [h]
  exact if_pos hreceived

/-- A task has sent a command and waits for the reply. -/
def AgentSystem.awaiting (task : TaskHandle) (command : Command) (s : AgentSystem) : AgentSystem :=
  { s with
    phase := Function.update s.phase task (.waiting command)
    notification := Function.update s.notification task
      (s.notification task).xTaskNotifyStateClear.enterWait
    unanswered := command :: s.unanswered }

@[simp] theorem awaiting_handle :
    (s.awaiting task command).xMQTTTaskHandle = s.xMQTTTaskHandle := rfl

@[simp] theorem awaiting_identifier :
    (s.awaiting task command).ulQueueMessageIdentifier = s.ulQueueMessageIdentifier := rfl

@[simp] theorem awaiting_issued : (s.awaiting task command).issued = s.issued := rfl

theorem awaiting_phase : (s.awaiting task command).phase task = .waiting command :=
  Function.update_self ..

theorem awaiting_notification :
    ((s.awaiting task command).notification task).ucNotifyState ≠ .received := by
  unfold AgentSystem.awaiting
  simp only [Function.update_self]
  exact clear_enter_wait _

/-- A task that has a command clears its notification state, sends the command and waits. -/
theorem run_to_wait (h : s.phase task = .identified command) :
    run commandStep [.clear task, .send task true, .wait task] s =
      some (s.awaiting task command) := by
  simp only [run, clear_can_happen h, Option.bind_some]
  rw [send_can_happen (Function.update_self ..), Option.bind_some,
    wait_can_happen (Function.update_self ..), Option.bind_some]
  simp only [AgentSystem.enter, AgentSystem.setNotification, AgentSystem.awaiting,
    Function.update_idem, Function.update_self]

/-- A task that waits for the reply to its command gets it and reads it. -/
theorem run_from_wait {number : Nat} (hnumber : command.ulMessageIdentifier = identifierOf number)
    (htask : command.xTaskToNotify = task) (hphase : s.phase task = .waiting command)
    (hmem : command ∈ s.unanswered)
    (hfree : (s.notification task).ucNotifyState ≠ .received) (code : MQTTNotifyCode)
    (uxStatus : Bool) :
    ∃ s', run commandStep [.answer command code uxStatus, .wake task] s = some s' ∧
      s'.phase = Function.update s.phase task .outside ∧
      s'.xMQTTTaskHandle = s.xMQTTTaskHandle ∧
      s'.ulQueueMessageIdentifier = s.ulQueueMessageIdentifier ∧ s'.issued = s.issued := by
  let answered := (s.notifyTask command.xNotificationData code uxStatus).release command
  have hanswered : answered.phase = s.phase := by rw [release_phase, notify_task_phase]
  have hnotification : answered.notification task =
      ⟨command.xNotificationData.outcome code uxStatus, .received⟩ := by
    rw [answered_notification rfl, htask, Function.update_self]
    exact congrArg (TaskNotification.mk · .received) (if_pos hfree)
  have hread : command.ulMessageIdentifier =
      (answered.notification task).ulNotifiedValue &&& messageIdentifierMask := by
    rw [hnotification]
    exact (@outcome_masked command.xNotificationData number hnumber code uxStatus).symm
  have hwake : commandStep answered (.wake task) = some (answered.leaveWait task command) :=
    wake_can_happen (by rw [hanswered]; exact hphase) (by rw [hnotification])
  refine ⟨answered.leaveWait task command, ?_, ?_, ?_, ?_, ?_⟩
  · simp only [run, answer_can_happen hmem, Option.bind_some]
    rw [hwake, Option.bind_some]
  · show Function.update answered.phase task (if _ then _ else _) = _
    rw [if_pos hread, hanswered]
  · show answered.xMQTTTaskHandle = _
    rw [release_handle, notify_task_handle]
  · show answered.ulQueueMessageIdentifier = _
    rw [release_identifier, notify_task_identifier]
  · show answered.issued = _
    rw [release_issued, notify_task_issued]

end Exchange

theorem long_wait_publish {number : Nat} (h : LongWait number s) :
    ∃ s', run commandStep (publishAndReturn number) s = some s' ∧ LongWait (number + 1) s' := by
  obtain ⟨hhandle, hidentifier, hissued, hfirst, hsecond⟩ := h
  have hcommand : s.nextCommand 2 firstBroker = secondCommand number := by
    unfold AgentSystem.nextCommand secondCommand
    rw [hissued, hidentifier]
  have hissue : run commandStep [.issue 2 firstBroker] s = some (s.issueCommand 2 firstBroker) := by
    simp only [run, issue_can_happen hsecond (show (2 : TaskHandle) ≠ s.xMQTTTaskHandle by
      rw [hhandle]; decide), Option.bind_some]
  have hidentified : (s.issueCommand 2 firstBroker).phase 2 =
      .identified (secondCommand number) := by
    rw [issue_phase, hcommand, Function.update_self]
  have hwait := run_to_wait hidentified
  obtain ⟨s', hanswer, hphase, hhandle', hidentifier', hissued'⟩ :=
    @run_from_wait ((s.issueCommand 2 firstBroker).awaiting 2 (secondCommand number)) 2
      (secondCommand number) number rfl rfl awaiting_phase List.mem_cons_self awaiting_notification
      .pubSent true
  have hphases : s'.phase = Function.update s.phase 2 .outside := by
    rw [hphase]
    show Function.update (Function.update (s.issueCommand 2 firstBroker).phase 2 _) 2 _ = _
    rw [Function.update_idem, issue_phase, Function.update_idem]
  refine ⟨s', run_append_some hissue (run_append_some hwait hanswer), ?_, ?_, ?_, ?_, ?_⟩
  · rw [hhandle', awaiting_handle, issue_handle, hhandle]
  · rw [hidentifier', awaiting_identifier, issue_identifier, next_identifier hidentifier]
  · rw [hissued', awaiting_issued, issue_issued, hissued]
  · rw [hphases, Function.update_of_ne (by decide)]
    exact hfirst
  · rw [hphases, Function.update_self]

/-- Task 1 waits while task 2 publishes a number of messages. -/
def publishMeanwhile (count : Nat) : List CommandEvent :=
  longWait ++ (List.range count).flatMap fun number => publishAndReturn (number + 1)

theorem publish_meanwhile (count : Nat) :
    ∃ s, run commandStep (publishMeanwhile count) (.initial 0) = some s ∧
      LongWait (count + 1) s := by
  induction count with
  | zero =>
      obtain ⟨s, hrun⟩ : ∃ s, run commandStep longWait (.initial 0) = some s := ⟨_, rfl⟩
      refine ⟨s, hrun, ?_⟩
      cases hrun
      exact ⟨rfl, rfl, rfl, rfl, rfl⟩
  | succ count ih =>
      obtain ⟨s, hrun, hwait⟩ := ih
      obtain ⟨s', hpublish, hwait'⟩ := long_wait_publish hwait
      have hevents : publishMeanwhile (count + 1) =
          publishMeanwhile count ++ publishAndReturn (count + 1) := by
        unfold publishMeanwhile
        rw [List.range_succ, List.flatMap_append, List.append_assoc, List.flatMap_singleton]
      rw [hevents]
      exact ⟨s', run_append_some hrun hpublish, hwait'⟩

/-- After 65533 messages of task 2 its next command has the identifier that task 1 waits for. -/
theorem identifiers_meet :
    ¬ Always commandStep AgentSystem.IdentifiersApart (.initial 0)
      (publishMeanwhile 65533 ++ [.issue 2 firstBroker]) := by
  obtain ⟨s, hrun, hwait⟩ := publish_meanwhile 65533
  have hissue : commandStep s (.issue 2 firstBroker) = some (s.issueCommand 2 firstBroker) :=
    issue_can_happen hwait.second (by rw [hwait.handle]; decide)
  have hlast : run commandStep [.issue 2 firstBroker] s = some (s.issueCommand 2 firstBroker) := by
    simp only [run, hissue, Option.bind_some]
  intro halways
  obtain ⟨hnew, hold⟩ := @under_way_of_issue s 2 firstBroker hwait.second
  have hfirst : s.UnderWay firstCommand := .inl ⟨1, congrArg SendPhase.command hwait.first⟩
  refine (halways.reached (run_append_some hrun hlast)).distinct firstCommand
    (s.nextCommand 2 firstBroker) (hold _ hfirst) hnew ?_ ?_
  · intro heq
    have htask := congrArg Command.xTaskToNotify heq
    exact absurd htask (show (1 : TaskHandle) ≠ 2 by decide)
  · show messageIdentifierMin = s.ulQueueMessageIdentifier
    rw [hwait.identifier]
    rfl

end TivaAws.Agent
