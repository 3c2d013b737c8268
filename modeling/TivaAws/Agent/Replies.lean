import TivaAws.Agent.Commands

/-!
# Replies to commands

A reply is the notification of the task that has issued a command. It is not written over a
notification that is pending, and it is pending itself until the task reads it, so it is lost if
other code has notified the task before, and if other code writes over it. No reply is lost in a run
just when neither happens.
-/

namespace TivaAws.Agent

open Rtos Runs

variable {s s' : AgentSystem} {event : CommandEvent} {command : Command} {task : TaskHandle}

/-- The notification is pending, and the task that waits for the reply to the command takes its
value for it. -/
def HoldsReply (command : Command) (notification : TaskNotification) : Prop :=
  notification.ucNotifyState = .received ∧
    command.ulMessageIdentifier = notification.ulNotifiedValue &&& messageIdentifierMask

/-- Where the MQTT task has answered a command and its task still waits for the reply, the reply is
there. -/
def AgentSystem.RepliesKept (s : AgentSystem) : Prop :=
  ∀ task command, (s.phase task).awaited = some command → command ∉ s.unanswered →
    HoldsReply command (s.notification task)

/-- The task of a command that is answered has no notification pending, unless it is one that the
task takes for the reply. -/
def AgentSystem.RoomFor (s : AgentSystem) (command : Command) : Prop :=
  (s.phase command.xTaskToNotify).awaited = some command →
    (s.notification command.xTaskToNotify).ucNotifyState = .received →
    HoldsReply command (s.notification command.xTaskToNotify)

/-- Answers find room, and other code does not change the upper half of a reply that is pending. -/
def AgentSystem.SparesReplies (s : AgentSystem) : CommandEvent → Prop
  | .answer command _ _ | .acknowledge _ _ command _ _ | .disconnect _ _ command =>
      s.RoomFor command
  | .notify task ulValue eAction =>
      ∀ command, (s.phase task).awaited = some command → command ∉ s.unanswered →
        (s.notification task).notifiedValue ulValue eAction &&& messageIdentifierMask =
          (s.notification task).ulNotifiedValue &&& messageIdentifierMask
  | _ => True

/-! ## Answers -/

/-- An answer keeps all replies just when it finds room. -/
theorem answer_exact {data : MQTTNotificationData} {code : MQTTNotifyCode} {uxStatus : Bool}
    (hnumbered : Numbered s) (hdata : data = command.xNotificationData)
    (hmem : command ∈ s.unanswered) (hkept : s.RepliesKept) :
    ((s.notifyTask data code uxStatus).release command).RepliesKept ↔ s.RoomFor command := by
  have hnotification := @answered_notification s command data code uxStatus hdata
  have hvalue : data.outcome code uxStatus &&& messageIdentifierMask =
      command.ulMessageIdentifier := by
    have hidentifier := hnumbered.identifier command (.inr hmem)
    subst hdata
    exact outcome_masked hidentifier code uxStatus
  unfold AgentSystem.RepliesKept
  rw [release_phase, notify_task_phase, release_unanswered, notify_task_unanswered, hnotification]
  constructor
  · intro hafter hawaited hreceived
    have hholds := hafter command.xTaskToNotify command hawaited
      fun h => absurd (List.mem_filter.mp h).2 (by simp)
    rw [Function.update_self] at hholds
    refine ⟨hreceived, hholds.2.trans ?_⟩
    -- The value of a pending notification is not overwritten.
    show (if (s.notification command.xTaskToNotify).ucNotifyState ≠ .received then _ else _) &&&
      messageIdentifierMask = _
    rw [if_neg (not_not.mpr hreceived)]
  · intro hroom task other hawaited hanswered
    have hother : other = command ∨ other ∉ s.unanswered := by
      by_cases heq : other = command
      · exact .inl heq
      · exact .inr fun h => hanswered (List.mem_filter.mpr ⟨h, decide_eq_true heq⟩)
    by_cases htask : task = command.xTaskToNotify
    · subst htask
      rw [Function.update_self]
      refine ⟨rfl, ?_⟩
      show _ = (if (s.notification command.xTaskToNotify).ucNotifyState ≠ .received then
        data.outcome code uxStatus else _) &&& messageIdentifierMask
      rcases hother with rfl | hother
      · split_ifs with hfree
        · exact hvalue.symm
        · exact (hroom hawaited (not_not.mp hfree)).2
      · obtain ⟨hreceived, hholds⟩ := hkept _ other hawaited hother
        rw [if_neg (not_not.mpr hreceived)]
        exact hholds
    · rw [Function.update_of_ne htask]
      rcases hother with rfl | hother
      · -- Only its own task waits for the reply to a command.
        exact absurd (hnumbered.task task other (SendPhase.command_of_awaited hawaited)).symm htask
      · exact hkept task other hawaited hother

/-! ## The other steps -/

/-- A task goes on, with a change of its own notification, to a phase in which its reply is kept. -/
theorem RepliesKept.enter {phases : TaskHandle → SendPhase}
    {notifications : TaskHandle → TaskNotification} {unanswered : List Command}
    {phase : SendPhase} {notification : TaskNotification} (hkept : s.RepliesKept)
    (hphases : phases = Function.update s.phase task phase)
    (hnotifications : notifications = Function.update s.notification task notification)
    (hunanswered : ∀ command ∈ s.unanswered, command ∈ unanswered)
    (hself : ∀ command, phase.awaited = some command → command ∉ unanswered →
      HoldsReply command notification) (holder : TaskHandle) (command : Command)
    (hawaited : (phases holder).awaited = some command) (hanswered : command ∉ unanswered) :
    HoldsReply command (notifications holder) := by
  subst hphases
  subst hnotifications
  by_cases hholder : holder = task
  · subst hholder
    rw [Function.update_self] at hawaited ⊢
    exact hself command hawaited hanswered
  · rw [Function.update_of_ne hholder] at hawaited ⊢
    exact hkept holder command hawaited fun hmem => hanswered (hunanswered command hmem)

/-- The notification of a task changes, and nothing else. -/
theorem replies_kept_notification {notification : TaskNotification} (hkept : s.RepliesKept) :
    (s.setNotification task notification).RepliesKept ↔
      ∀ command, (s.phase task).awaited = some command → command ∉ s.unanswered →
        HoldsReply command notification := by
  constructor
  · intro hafter command hawaited hanswered
    have hholds := hafter task command hawaited hanswered
    rwa [show (s.setNotification task notification).notification task = notification from
      Function.update_self ..] at hholds
  · intro hself
    exact RepliesKept.enter hkept (Function.update_eq_self task s.phase).symm rfl
      (fun _ hmem => hmem) hself

/-- A step keeps all replies just when answers find room and pending replies are spared. -/
theorem replies_kept_exact (hnumbered : Numbered s) (haccounted : Accounted s)
    (hkept : s.RepliesKept) (h : CommandStep s event s') :
    s'.RepliesKept ↔ s.SparesReplies event := by
  have hstored : ∀ {uxBrokerNumber : Fin maxBrokers} {x : Fin maxParallelOps}
      {command : Command}, s.StoredIn command uxBrokerNumber x →
        command ∈ s.unanswered ∧ s.entry uxBrokerNumber x = command.xNotificationData := by
    rintro uxBrokerNumber x command ⟨rfl, hplace⟩
    exact haccounted.stored command x hplace
  cases h with
  | @own task notification houtside =>
      refine (replies_kept_notification hkept).trans ⟨fun _ => trivial, fun _ command h => ?_⟩
      rw [houtside] at h
      cases h
  | @notify task ulValue eAction =>
      refine (replies_kept_notification hkept).trans ?_
      constructor
      · intro hafter command hawaited hanswered
        rw [← (hkept task command hawaited hanswered).2]
        exact (hafter command hawaited hanswered).2.symm
      · intro hspares command hawaited hanswered
        refine ⟨rfl, (hkept task command hawaited hanswered).2.trans ?_⟩
        exact (hspares command hawaited hanswered).symm
  | refuse => exact ⟨fun _ => trivial, fun _ => hkept⟩
  | @issue task uxBrokerNumber _ _ =>
      refine ⟨fun _ => trivial, fun _ => ?_⟩
      exact RepliesKept.enter hkept (issue_phase _)
        ((issue_notification _).trans (Function.update_eq_self task s.notification).symm)
        (fun _ hmem => by rwa [issue_unanswered]) fun _ h => by cases h
  | clear _ =>
      refine ⟨fun _ => trivial, fun _ => ?_⟩
      exact RepliesKept.enter hkept rfl rfl (fun _ hmem => hmem) fun _ h => by cases h
  | @send task command _ =>
      refine ⟨fun _ => trivial, fun _ => ?_⟩
      refine RepliesKept.enter hkept rfl (Function.update_eq_self task s.notification).symm
        (fun _ hmem => List.mem_cons_of_mem _ hmem) fun other h hanswered => ?_
      cases h
      exact absurd List.mem_cons_self hanswered
  | @giveUp task _ _ =>
      refine ⟨fun _ => trivial, fun _ => ?_⟩
      exact RepliesKept.enter hkept rfl (Function.update_eq_self task s.notification).symm
        (fun _ hmem => hmem) fun _ h => by cases h
  | @wait task command hphase =>
      refine ⟨fun _ => trivial, fun _ => ?_⟩
      refine RepliesKept.enter hkept rfl rfl (fun _ hmem => hmem) fun other h hanswered => ?_
      -- A notification that is pending stays so when the task waits.
      have hawaited : (s.phase task).awaited = some other := by
        rw [hphase]
        exact h
      have hholds := hkept task other hawaited hanswered
      unfold TaskNotification.enterWait
      rw [if_neg (not_not.mpr hholds.1)]
      exact hholds
  | @wake task command hphase =>
      refine ⟨fun _ => trivial, fun _ => ?_⟩
      refine RepliesKept.enter hkept rfl rfl (fun _ hmem => hmem) fun other h hanswered => ?_
      -- A task that goes on waiting has read something else, so its command is not answered.
      split_ifs at h with hread
      · cases h
      · cases h
        have hawaited : (s.phase task).awaited = some command := by
          rw [hphase]
          rfl
        exact absurd (hkept task command hawaited hanswered).2 hread
  | store _ _ _ => exact ⟨fun _ => trivial, fun _ => hkept⟩
  | answer hmem => exact answer_exact hnumbered rfl hmem hkept
  | acknowledge hin =>
      obtain ⟨hmem, hdata⟩ := hstored hin
      exact answer_exact hnumbered hdata hmem hkept
  | disconnect hin =>
      obtain ⟨hmem, hdata⟩ := hstored hin
      exact answer_exact hnumbered hdata hmem hkept

/-! ## Every run -/

/-- No reply is lost in a run just when every answer finds room in the notification of its task, and
no pending reply is changed by other code. -/
theorem replies_kept_iff (xMQTTTaskHandle : TaskHandle) (events : List CommandEvent) :
    Always commandStep AgentSystem.RepliesKept (.initial xMQTTTaskHandle) events ↔
      Throughout commandStep AgentSystem.SparesReplies (.initial xMQTTTaskHandle) events :=
  always_iff_throughout (fun s => Numbered s ∧ Accounted s)
    (fun hinv _ _ h => ⟨hinv.1.step (command_step h), hinv.2.step (command_step h)⟩)
    (fun hinv hkept h => replies_kept_exact hinv.1 hinv.2 hkept (command_step h))
    ⟨numbered_initial xMQTTTaskHandle, accounted_initial xMQTTTaskHandle⟩
    fun _ _ h => by cases h

/-- A task is notified by other code before the reply to its command. -/
def notifiedBeforeReply : List CommandEvent :=
  [.issue 1 firstBroker, .clear 1, .send 1 true, .notify 1 5 .setValueWithOverwrite,
    .answer firstCommand .pubSent true, .wait 1, .wake 1, .wait 1]

/-- The task reads what the other code has sent and then waits, although its command has been
answered and nothing is pending. -/
theorem reply_lost :
    ∃ s, run commandStep notifiedBeforeReply (.initial 0) = some s ∧
      s.phase 1 = .waiting firstCommand ∧ s.unanswered = [] ∧
      (s.notification 1).ucNotifyState = .waiting ∧
      ¬ Always commandStep AgentSystem.RepliesKept (.initial 0) notifiedBeforeReply := by
  have hrun : ((run commandStep notifiedBeforeReply (.initial 0)).any fun s =>
      decide (s.phase 1 = .waiting firstCommand) && s.unanswered.isEmpty &&
        decide ((s.notification 1).ucNotifyState = .waiting)) = true := by
    decide +kernel
  obtain ⟨s, hlast, hcheck⟩ := (Option.any_eq_true _ _).mp hrun
  obtain ⟨hfirst, hstate⟩ := Bool.and_eq_true_iff.mp hcheck
  obtain ⟨hphase, hanswered⟩ := Bool.and_eq_true_iff.mp hfirst
  have hphase := of_decide_eq_true hphase
  have hanswered := List.isEmpty_iff.mp hanswered
  have hstate := of_decide_eq_true hstate
  refine ⟨s, hlast, hphase, hanswered, hstate, fun halways => ?_⟩
  have hholds := halways.reached hlast 1 firstCommand (by rw [hphase]; rfl)
    (by rw [hanswered]; exact List.not_mem_nil)
  rw [HoldsReply, hstate] at hholds
  cases hholds.1

end TivaAws.Agent
