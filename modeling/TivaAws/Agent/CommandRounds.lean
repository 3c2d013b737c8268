import TivaAws.Agent.Commands
import TivaAws.Agent.Told

/-!
# Rounds of the MQTT task among the commands

Among the commands of many tasks the MQTT task stores the notification data of a command, answers a
command it works on, answers the entry with a packet identifier, or answers an entry because of a
disconnect. Every round of the MQTT task is a sequence of these, with the same entries of the
waiting tasks and the same notifications, so what holds of the commands holds of the tasks beside
`prvMQTTTask`.
-/

namespace TivaAws.Agent

open Mqtt Sockets Session Table Runs Rtos

variable {E : Type} {user : Environment E} {w w' w'' : Endpoint E} {s s' s'' : AgentSystem}
  {broker : Fin maxBrokers} {command : Command} {later later' : List AgentOutput}
  {data data' : MQTTNotificationData} {agent agent' : MQTTAgent E}
  {connection : MQTTBrokerConnection}

/-! ## What the MQTT task does -/

/-- The event is one of the MQTT task. -/
def CommandEvent.Serves : CommandEvent → Prop
  | .store _ | .answer _ _ _ | .acknowledge _ _ _ _ _ | .disconnect _ _ _ => True
  | _ => False

/-- What an output of the agent does to the notifications of the tasks. -/
def AgentOutput.notify (notification : TaskHandle → TaskNotification) :
    AgentOutput → TaskHandle → TaskNotification
  | .notified task value =>
      Function.update notification task
        ((notification task).xTaskNotify value .setValueWithoutOverwrite)
  | _ => notification

/-- The MQTT task goes from one state of the commands to another, in which the notifications are
those that the agent has put out. -/
structure Follows (s : AgentSystem) (later : List AgentOutput) (s' : AgentSystem) : Prop where
  run : ∃ events, (∀ event ∈ events, event.Serves) ∧ Runs.run commandStep events s = some s'
  notification : s'.notification = later.foldl AgentOutput.notify s.notification

theorem Follows.trans (hfirst : Follows s later s') (hsecond : Follows s' later' s'') :
    Follows s (later ++ later') s'' := by
  obtain ⟨⟨events, hserves, hrun⟩, hnotification⟩ := hfirst
  obtain ⟨⟨events', hserves', hrun'⟩, hnotification'⟩ := hsecond
  refine ⟨⟨events ++ events', fun event hmem => ?_, run_append_some hrun hrun'⟩, ?_⟩
  · rcases List.mem_append.mp hmem with hmem | hmem
    · exact hserves event hmem
    · exact hserves' event hmem
  · rw [hnotification', hnotification, List.foldl_append]

/-- Nobody is notified. -/
theorem follows_quiet (hquiet : ∀ task value, .notified task value ∉ later) :
    Follows s later s := by
  refine ⟨⟨[], fun event hmem => absurd hmem List.not_mem_nil, rfl⟩, ?_⟩
  induction later with
  | nil => rfl
  | cons output rest ih =>
      have hfirst : output.notify s.notification = s.notification := by
        cases output with
        | notified task value => exact absurd List.mem_cons_self (hquiet task value)
        | _ => rfl
      rw [List.foldl_cons, hfirst]
      exact ih fun task value hmem => hquiet task value (List.mem_cons_of_mem _ hmem)

/-- A single event. -/
theorem follows_event {event : CommandEvent} (hstep : commandStep s event = some s')
    (hserves : event.Serves)
    (hnotification : s'.notification = later.foldl AgentOutput.notify s.notification) :
    Follows s later s' := by
  refine ⟨⟨[event], fun other hmem => ?_, ?_⟩, hnotification⟩
  · rw [List.mem_singleton.mp hmem]
    exact hserves
  · show (commandStep s event).bind some = some s'
    rw [hstep]
    rfl

/-! ## Entries -/

/-- Two entries are the same, or both are free: what is left in a free entry is not read. -/
def SameEntry (data data' : MQTTNotificationData) : Prop :=
  data = data' ∨ data.xTaskToNotify = none ∧ data'.xTaskToNotify = none

theorem SameEntry.waits_for (h : SameEntry data data') (usPacketIdentifier : UInt16) :
    data.waitsFor usPacketIdentifier = data'.waitsFor usPacketIdentifier := by
  rcases h with rfl | ⟨hnone, hnone'⟩
  · rfl
  · unfold MQTTNotificationData.waitsFor
    rw [hnone, hnone']
    rfl

theorem SameEntry.is_none (h : SameEntry data data') :
    data.xTaskToNotify.isNone = data'.xTaskToNotify.isNone := by
  rcases h with rfl | ⟨hnone, hnone'⟩
  · rfl
  · rw [hnone, hnone']

/-- The entries of a connection are known to the commands. -/
structure Knows (broker : Fin maxBrokers) (s : AgentSystem) (connection : MQTTBrokerConnection) :
    Prop where
  accounted : Accounted s
  entries : ∀ x, SameEntry (s.entry broker x) (connection.entry x)

/-- What happens at the endpoint of a connection is what the MQTT task does among the commands. -/
structure FollowedBy (broker : Fin maxBrokers) (s : AgentSystem) (w w' : Endpoint E)
    (s' : AgentSystem) : Prop where
  follows : ∃ later, w'.outputs = w.outputs ++ later ∧ Follows s later s'
  knows : Knows broker s' w'.connection
  others : ∀ other, other ≠ broker → ∀ x, s'.entry other x = s.entry other x

/-- The command has been sent, and the MQTT task is to work on it. -/
def AgentSystem.Open (s : AgentSystem) (command : Command) : Prop :=
  command ∈ s.unanswered ∧ s.stored command = none

theorem FollowedBy.trans (hfirst : FollowedBy broker s w w' s')
    (hsecond : FollowedBy broker s' w' w'' s'') : FollowedBy broker s w w'' s'' := by
  obtain ⟨later, houtputs, hfollows⟩ := hfirst.follows
  obtain ⟨later', houtputs', hfollows'⟩ := hsecond.follows
  refine ⟨⟨later ++ later', ?_, hfollows.trans hfollows'⟩, hsecond.knows, fun other hne x => ?_⟩
  · rw [houtputs', houtputs, List.append_assoc]
  · rw [hsecond.others other hne x, hfirst.others other hne x]

/-- What is put out without opening or answering a request notifies nobody. -/
theorem quiet_of_actions {outputs : List AgentOutput}
    (h : requestActions (outputs ++ later) = requestActions outputs) (task : TaskHandle)
    (value : UInt32) : .notified task value ∉ later := by
  intro hmem
  unfold requestActions at h
  rw [List.filterMap_append, List.append_right_eq_self, List.filterMap_eq_nil_iff] at h
  exact Option.some_ne_none _ (h _ hmem)

/-- Nothing that concerns a task. -/
theorem followed_undisturbed (hknows : Knows broker s w.connection)
    (hundisturbed : Undisturbed w w') (hgrows : ∃ later, w'.outputs = w.outputs ++ later) :
    FollowedBy broker s w w' s := by
  obtain ⟨later, houtputs⟩ := hgrows
  have hactions := hundisturbed.actions
  rw [houtputs] at hactions
  refine ⟨⟨later, houtputs, follows_quiet (quiet_of_actions hactions)⟩,
    ⟨hknows.accounted, fun x => ?_⟩, fun _ _ _ => rfl⟩
  unfold MQTTBrokerConnection.entry
  rw [hundisturbed.waiting]
  exact hknows.entries x

theorem FollowedBy.refl (hknows : Knows broker s w.connection) : FollowedBy broker s w w s :=
  followed_undisturbed hknows (.refl w) ⟨[], (List.append_nil _).symm⟩

/-! ## Answers -/

@[simp] theorem notify_task_stored (data : MQTTNotificationData) (code : MQTTNotifyCode)
    (uxStatus : Bool) : (s.notifyTask data code uxStatus).stored = s.stored := by
  unfold AgentSystem.notifyTask
  split <;> rfl

@[simp] theorem notify_task_entry (data : MQTTNotificationData) (code : MQTTNotifyCode)
    (uxStatus : Bool) : (s.notifyTask data code uxStatus).entry = s.entry := by
  unfold AgentSystem.notifyTask
  split <;> rfl

@[simp] theorem release_stored :
    (s.release command).stored = Function.update s.stored command none := by
  unfold AgentSystem.release
  split <;> rfl

/-- The entry of the command is free, and the others are as before. -/
theorem release_entry (command : Command) (other : Fin maxBrokers) (x : Fin maxParallelOps) :
    (s.release command).entry other x =
      if s.StoredIn command other x then { s.entry other x with xTaskToNotify := none }
      else s.entry other x := by
  unfold AgentSystem.release
  cases hstored : s.stored command with
  | none =>
      rw [if_neg fun h => Option.some_ne_none x (h.2.symm.trans hstored)]
      rfl
  | some y =>
      have hentry := set_entry_entry command.uxBrokerNumber y
        { s.entry command.uxBrokerNumber y with xTaskToNotify := none } other x (s := s)
      refine hentry.trans ?_
      by_cases hsame : other = command.uxBrokerNumber ∧ x = y
      · obtain ⟨rfl, rfl⟩ := hsame
        rw [if_pos ⟨rfl, rfl⟩, if_pos ⟨rfl, hstored⟩]
      · rw [if_neg hsame, if_neg]
        rintro ⟨hbroker, hx⟩
        exact hsame ⟨hbroker.symm, Option.some.inj (hx.symm.trans hstored)⟩

/-- The state after a command has been answered. -/
def AgentSystem.answered (s : AgentSystem) (command : Command) (code : MQTTNotifyCode)
    (uxStatus : Bool) : AgentSystem :=
  (s.notifyTask command.xNotificationData code uxStatus).release command

/-- Answering a command notifies its task, and frees its entry if it is in one. -/
theorem answered_followed {event : CommandEvent} {code : MQTTNotifyCode} {uxStatus : Bool}
    (hknows : Knows broker s w.connection)
    (hstep : commandStep s event = some (s.answered command code uxStatus))
    (hserves : event.Serves) (hbroker : command.uxBrokerNumber = broker)
    (houtputs : w'.outputs = w.outputs ++
      [.notified command.xTaskToNotify (command.xNotificationData.outcome code uxStatus)])
    (hfree : ∀ x, s.stored command = some x → (w'.connection.entry x).xTaskToNotify = none)
    (hkept : ∀ x, s.stored command ≠ some x → w'.connection.entry x = w.connection.entry x) :
    FollowedBy broker s w w' (s.answered command code uxStatus) ∧
      ∀ other, other ≠ command → s.Open other →
        (s.answered command code uxStatus).Open other := by
  subst hbroker
  refine ⟨⟨⟨_, houtputs, follows_event hstep hserves (answered_notification rfl)⟩,
    ⟨?_, fun x => ?_⟩, fun other hne x => ?_⟩, ?_⟩
  · exact (hknows.accounted.notify_task _ code uxStatus).release
  · unfold AgentSystem.answered
    rw [release_entry, notify_task_entry]
    split_ifs with hstored
    · exact Or.inr ⟨rfl, hfree x ((notify_task_stored _ _ _) ▸ hstored.2)⟩
    · rw [hkept x fun h => hstored ⟨rfl, (congrFun (notify_task_stored _ _ _) _).trans h⟩]
      exact hknows.entries x
  · unfold AgentSystem.answered
    rw [release_entry, notify_task_entry, if_neg fun h => hne h.1.symm]
  · rintro other hne ⟨hmem, hstored⟩
    unfold AgentSystem.answered AgentSystem.Open
    rw [release_unanswered, notify_task_unanswered, release_stored, notify_task_stored]
    exact ⟨List.mem_filter.mpr ⟨hmem, decide_eq_true hne⟩,
      (Function.update_of_ne hne ..).trans hstored⟩

/-! ## Calls of the library -/

/-- What the MQTT task has not begun to work on stays so. -/
def KeepsOpen (s s' : AgentSystem) : Prop := ∀ command, s.Open command → s'.Open command

/-- An entry with a task is that of a command. -/
theorem Knows.stored_command (hknows : Knows broker s connection) {x : Fin maxParallelOps}
    {task : TaskHandle} (htask : (connection.entry x).xTaskToNotify = some task) :
    ∃ command, s.StoredIn command broker x ∧ s.entry broker x = command.xNotificationData ∧
      connection.entry x = command.xNotificationData := by
  have hsame : s.entry broker x = connection.entry x := by
    rcases hknows.entries x with hsame | ⟨-, hnone⟩
    · exact hsame
    · rw [hnone] at htask
      cases htask
  obtain ⟨command, hstored⟩ := hknows.accounted.entries broker x (by rw [hsame, htask]; nofun)
  have hdata := (hknows.accounted.stored command x hstored.2).2
  rw [hstored.1] at hdata
  exact ⟨command, hstored, hdata, hsame.symm.trans hdata⟩

/-- The task of an entry is notified in an event that answers the command of the entry. -/
theorem notify_waiting_followed (event : Command → CommandEvent) (code : MQTTNotifyCode)
    (uxStatus : Bool) (hknows : Knows broker s w.connection) (x : Fin maxParallelOps)
    (hserves : ∀ command, (event command).Serves)
    (hstep : ∀ command, s.StoredIn command broker x →
      s.entry broker x = command.xNotificationData →
      commandStep s (event command) = some (s.answered command code uxStatus)) :
    ∃ s', FollowedBy broker s w (notifyWaiting x code uxStatus w) s' ∧ KeepsOpen s s' := by
  cases hrequest : (w.connection.entry x).request with
  | none =>
      rw [notify_waiting_none hrequest]
      exact ⟨s, .refl hknows, fun _ hopen => hopen⟩
  | some request =>
      obtain ⟨task, htask, -⟩ := Option.map_eq_some_iff.mp hrequest
      obtain ⟨command, hstored, hentry, hdata⟩ := hknows.stored_command htask
      obtain ⟨hfree, hothers, -⟩ := notify_waiting_entry x code uxStatus w
      have hemit := (notify_requesting_task_some hrequest code uxStatus w).2.1
      have hcommand : request.1 = command.xTaskToNotify := by
        rw [hdata] at hrequest
        cases hrequest
        rfl
      have houtputs : (notifyWaiting x code uxStatus w).outputs = w.outputs ++
          [.notified command.xTaskToNotify (command.xNotificationData.outcome code uxStatus)] := by
        rw [← hcommand, ← hdata]
        exact congrArg Endpoint.outputs hemit
      -- The entry of the command is free behind it, and no other one has changed.
      have hfreed : ∀ y, s.stored command = some y →
          ((notifyWaiting x code uxStatus w).connection.entry y).xTaskToNotify = none := by
        intro y hy
        obtain rfl : x = y := Option.some.inj (hstored.2.symm.trans hy)
        exact Option.map_eq_none_iff.mp hfree
      have hkept : ∀ y, s.stored command ≠ some y →
          (notifyWaiting x code uxStatus w).connection.entry y = w.connection.entry y := by
        intro y hy
        refine hothers y ?_
        rintro rfl
        exact hy hstored.2
      obtain ⟨hfollowed, hopen⟩ := answered_followed hknows (hstep command hstored hentry)
        (hserves command) hstored.1 houtputs hfreed hkept
      refine ⟨_, hfollowed, fun other hother => hopen other ?_ hother⟩
      rintro rfl
      exact Option.some_ne_none x (hstored.2.symm.trans hother.2)

/-- The task that waits for a packet identifier is notified. -/
theorem notify_if_waiting_followed (hknows : Knows broker s w.connection)
    (usPacketIdentifier : UInt16) (code : MQTTNotifyCode) (uxStatus : Bool) :
    ∃ s', FollowedBy broker s w (notifyIfWaiting usPacketIdentifier code uxStatus w) s' ∧
      KeepsOpen s s' := by
  have hsame : prvRetrieveNotificationData usPacketIdentifier (s.xMQTTConnections broker) =
      prvRetrieveNotificationData usPacketIdentifier w.connection :=
    firstIndex_congr fun x => (hknows.entries x).waits_for usPacketIdentifier
  unfold notifyIfWaiting
  cases hretrieved : prvRetrieveNotificationData usPacketIdentifier w.connection with
  | none => exact ⟨s, .refl hknows, fun _ hopen => hopen⟩
  | some x =>
      refine notify_waiting_followed
        (fun command => .acknowledge broker usPacketIdentifier command code uxStatus) code uxStatus
        hknows x (fun _ => trivial) fun command hstored hentry => ?_
      unfold commandStep
      simp only
      rw [hsame, hretrieved, Option.bind_some, if_pos hstored, hentry]
      rfl

/-- All tasks that wait are notified of a disconnect. -/
theorem notify_all_followed (entries : List (Fin maxParallelOps))
    (hknows : Knows broker s w.connection) :
    ∃ s', FollowedBy broker s w
      (entries.foldl (fun w x => notifyWaiting x .clientGotDisconnected false w) w) s' ∧
        KeepsOpen s s' := by
  induction entries generalizing s w with
  | nil => exact ⟨s, .refl hknows, fun _ hopen => hopen⟩
  | cons x rest ih =>
      obtain ⟨s', hfirst, hopen⟩ := notify_waiting_followed
        (fun command => .disconnect broker x command) .clientGotDisconnected false hknows x
        (fun _ => trivial) fun command hstored hentry => by
          unfold commandStep
          simp only
          rw [if_pos hstored, hentry]
          rfl
      obtain ⟨s'', hrest, hopen'⟩ := ih hfirst.knows
      exact ⟨s'', hfirst.trans hrest, fun command h => hopen' command (hopen command h)⟩

/-- What the callback of the agent does for an event. -/
theorem event_followed {event : MQTTEvent} (h : EventResponse user w event w')
    (hknows : Knows broker s w.connection) :
    ∃ s', FollowedBy broker s w w' s' ∧ KeepsOpen s s' := by
  have hcall : ∀ call, FollowedBy broker s w (callUser user call w).2 s := fun call =>
    followed_undisturbed hknows (undisturbed_call_user user call w)
      (proceeds_call_user user call w).outputs_grow
  cases h with
  | ignored _ _ => exact ⟨s, .refl hknows, fun _ hopen => hopen⟩
  | answered code uxStatus _ _ => exact notify_if_waiting_followed hknows _ code uxStatus
  | published data => exact ⟨s, hcall (.publish data), fun _ hopen => hopen⟩
  | disconnected reason =>
      unfold Agent.prvProcessReceivedDisconnect
      simp only
      generalize hclose : (if w.connection.xSocket ≠ socketsInvalidSocket then
        prvGracefulSocketClose user (callUser user .disconnect w).2 else w) = closed
      have hclosed : FollowedBy broker s w closed s := by
        subst hclose
        split_ifs
        · exact followed_undisturbed hknows
            ((undisturbed_call_user user .disconnect w).trans ⟨rfl, rfl⟩)
            (proceeds_call_user user .disconnect w).outputs_grow
        · exact .refl hknows
      obtain ⟨s', htold, hopen⟩ := notify_all_followed (List.finRange maxParallelOps) hclosed.knows
      exact ⟨s', hclosed.trans htold, hopen⟩

theorem endpoint_followed {label : MQTTOutput} (h : EndpointResponse user w label w')
    (hknows : Knows broker s w.connection) :
    ∃ s', FollowedBy broker s w w' s' ∧ KeepsOpen s s' := by
  cases h with
  | outside environment _ =>
      exact ⟨s, followed_undisturbed hknows ⟨rfl, rfl⟩ ⟨[], (List.append_nil _).symm⟩,
        fun _ hopen => hopen⟩
  | sent pucData =>
      exact ⟨s, followed_undisturbed hknows ⟨rfl, rfl⟩ ⟨[], (List.append_nil _).symm⟩,
        fun _ hopen => hopen⟩
  | event result hevent => exact event_followed hevent hknows

/-- Whatever the library does in the course of its calls. -/
theorem responses_followed {labels : List MQTTOutput} (h : Responses (initParams user) w labels w')
    (hknows : Knows broker s w.connection) :
    ∃ s', FollowedBy broker s w w' s' ∧ KeepsOpen s s' := by
  induction h generalizing s with
  | nil w => exact ⟨s, .refl hknows, fun _ hopen => hopen⟩
  | cons hresponds _ ih =>
      obtain ⟨s', hfirst, hopen⟩ := endpoint_followed (endpoint_response hresponds) hknows
      obtain ⟨s'', hrest, hopen'⟩ := ih hfirst.knows
      exact ⟨s'', hfirst.trans hrest, fun command h => hopen' command (hopen command h)⟩

/-- While a connection is managed. -/
theorem followed_kept_by_managing (user : Environment E) (start : Session (Endpoint E)) :
    KeptByManaging user fun cur => ∃ s', FollowedBy broker s start.world cur.world s' where
  receives _ h _ := by
    obtain ⟨s', h⟩ := h
    exact ⟨s', h.trans (followed_undisturbed h.knows ⟨rfl, rfl⟩ ⟨[], (List.append_nil _).symm⟩)⟩
  ticks _ h := by
    obtain ⟨s', h⟩ := h
    exact ⟨s', h.trans (followed_undisturbed h.knows ⟨rfl, rfl⟩ ⟨[], (List.append_nil _).symm⟩)⟩
  does _ _ _ _ _ h hdoes := by
    obtain ⟨s', h⟩ := h
    obtain ⟨labels, hcalls, -⟩ := hdoes
    obtain ⟨s'', hlater, -⟩ := responses_followed hcalls.responses h.knows
    exact ⟨s'', h.trans hlater⟩

/-! ## Commands -/

theorem answer_step (hmem : command ∈ s.unanswered) (code : MQTTNotifyCode) (uxStatus : Bool) :
    commandStep s (.answer command code uxStatus) = some (s.answered command code uxStatus) :=
  if_pos hmem

/-- The task of a command that is in no entry is told. -/
theorem notify_followed (hknows : Knows command.uxBrokerNumber s w.connection)
    (hopen : s.Open command) (code : MQTTNotifyCode) (uxStatus : Bool) :
    ∃ s', FollowedBy command.uxBrokerNumber s w
      (prvNotifyRequestingTask command.xNotificationData code uxStatus w).2 s' := by
  have hnot : ∀ x, s.stored command ≠ some x := fun x hx =>
    Option.some_ne_none x (hx.symm.trans hopen.2)
  have hanswered : FollowedBy command.uxBrokerNumber s w
      (prvNotifyRequestingTask command.xNotificationData code uxStatus w).2
        (s.answered command code uxStatus) ∧ _ :=
    answered_followed hknows (answer_step hopen.1 code uxStatus) trivial rfl rfl
      (fun x hx => absurd hx (hnot x)) fun _ _ => rfl
  exact ⟨_, hanswered.1⟩

/-- The notification data of a command goes into an entry. -/
theorem store_followed {x : Fin maxParallelOps}
    (hknows : Knows command.uxBrokerNumber s w.connection) (hopen : s.Open command)
    (hfree : firstIndex (fun entry : MQTTNotificationData => entry.xTaskToNotify.isNone)
      w.connection.xWaitingTasks = some x) :
    ∃ s', FollowedBy command.uxBrokerNumber s w (w.setWaiting x command.xNotificationData) s' ∧
      command ∈ s'.unanswered ∧ s'.stored command = some x := by
  obtain ⟨hmem, hunstored⟩ := hopen
  have hfirst : firstIndex (fun entry : MQTTNotificationData => entry.xTaskToNotify.isNone)
      (s.xMQTTConnections command.uxBrokerNumber).xWaitingTasks = some x :=
    (firstIndex_congr fun y => (hknows.entries y).is_none).trans hfree
  have hnone : (s.entry command.uxBrokerNumber x).xTaskToNotify = none :=
    Option.isNone_iff_eq_none.mp (firstIndex_satisfies hfirst)
  have hstep : commandStep s (.store command) =
      some { s.setEntry command.uxBrokerNumber x command.xNotificationData with
        stored := Function.update s.stored command (some x) } := by
    unfold commandStep prvStoreNotificationData
    simp only
    rw [if_pos ⟨hmem, hunstored⟩, hfirst]
    rfl
  have hentry := set_entry_entry command.uxBrokerNumber x command.xNotificationData (s := s)
  refine ⟨_, ⟨⟨[], (List.append_nil _).symm, follows_event hstep trivial rfl⟩,
    ⟨hknows.accounted.store hmem hunstored hnone, fun y => ?_⟩, fun other hne y => ?_⟩, hmem,
    Function.update_self ..⟩
  · show SameEntry ((s.setEntry command.uxBrokerNumber x command.xNotificationData).entry
      command.uxBrokerNumber y) _
    rw [hentry]
    by_cases hsame : y = x
    · rw [if_pos ⟨rfl, hsame⟩, hsame, set_waiting_self]
      exact Or.inl rfl
    · rw [if_neg fun h => hsame h.2, set_waiting_entry hsame]
      exact hknows.entries y
  · exact (hentry other y).trans (if_neg fun h => hne h.1)

/-- A command that submits a packet. -/
theorem initiate_followed {c : Session (Endpoint E)} (code : MQTTNotifyCode)
    {run : Session (Endpoint E) → Bool × Session (Endpoint E)}
    (hrun : ∀ start, Submits user command.xNotificationData.packetIdentifier start (run start))
    (hknows : Knows command.uxBrokerNumber s c.world.connection) (hopen : s.Open command) :
    ∃ s', FollowedBy command.uxBrokerNumber s c.world
      (initiate command.xNotificationData code run c).world s' := by
  unfold Agent.initiate storeNotification prvStoreNotificationData
  cases hfree : firstIndex (fun entry : MQTTNotificationData => entry.xTaskToNotify.isNone)
    c.world.connection.xWaitingTasks with
  | none => exact notify_followed hknows hopen code false
  | some x =>
      obtain ⟨s', hstored, hmem, hplace⟩ := store_followed hknows hopen hfree
      have hsubmits := hrun (onEndpoint (fun w => w.setWaiting x command.xNotificationData) c)
      have hsubmitted := hstored.trans
        (followed_undisturbed hstored.knows hsubmits.undisturbed hsubmits.grows)
      show ∃ s', FollowedBy command.uxBrokerNumber s c.world
        (finishCommand command.xNotificationData (some x) code
          (run (onEndpoint (fun w => w.setWaiting x command.xNotificationData) c)).1
          (run (onEndpoint (fun w => w.setWaiting x command.xNotificationData) c)).2).world s'
      generalize run (onEndpoint (fun w => w.setWaiting x command.xNotificationData) c) = result
        at hsubmitted ⊢
      cases hresult : result.1 with
      | true => exact ⟨s', hsubmitted⟩
      | false =>
          obtain ⟨-, -, hothers, -⟩ :=
            finish_entries command.xNotificationData x code false result.2
          refine ⟨_, hsubmitted.trans (answered_followed hsubmitted.knows
            (answer_step hmem code false) trivial rfl rfl (fun y hy => ?_) fun y hy => ?_).1⟩
          · obtain rfl : x = y := Option.some.inj (hplace.symm.trans hy)
            exact congrArg MQTTNotificationData.xTaskToNotify (set_waiting_self x _ _)
          · refine hothers y ?_
            rintro rfl
            exact hy hplace

/-- What the queue holds for the MQTT task: an open command, or a command that only wakes it. -/
def AgentSystem.Sends (s : AgentSystem) (received : MQTTEventData) : Prop :=
  received.xEventType = .serviceSocket ∧ received.xNotificationData.xTaskToNotify = none ∨
    ∃ command, s.Open command ∧ received.uxBrokerNumber = command.uxBrokerNumber ∧
      received.xNotificationData = command.xNotificationData

/-- A call of the library before the task of the command is told. -/
theorem does_followed {op : Op} {c c' : Session (Endpoint E)}
    (hdoes : Does (initParams user) op c c') (hknows : Knows broker s c.world.connection) :
    ∃ s', FollowedBy broker s c.world c'.world s' ∧ KeepsOpen s s' := by
  obtain ⟨labels, hcalls, -⟩ := hdoes
  exact responses_followed hcalls.responses hknows

/-- The MQTT task processes a command. -/
theorem process_followed (user : Environment E) {received : MQTTEventData}
    {c : Session (Endpoint E)} (hsends : s.Sends received)
    (hknows : Knows received.uxBrokerNumber s c.world.connection) :
    ∃ s', FollowedBy received.uxBrokerNumber s c.world
      (processCommand user received c).world s' := by
  -- Asking for the time changes neither the connection nor what has been put out.
  have hasked : FollowedBy received.uxBrokerNumber s c.world
      (checkedSession user received c).world s :=
    followed_undisturbed hknows ⟨rfl, rfl⟩ ⟨[], (List.append_nil _).symm⟩
  suffices hprocessed : ∃ s', FollowedBy received.uxBrokerNumber s
      (checkedSession user received c).world (processCommand user received c).world s' by
    obtain ⟨s', hlater⟩ := hprocessed
    exact ⟨s', hasked.trans hlater⟩
  have hchecked : Knows received.uxBrokerNumber s
      (checkedSession user received c).world.connection := hknows
  have houtcome := process_cases user received c
  generalize processCommand user received c = c' at houtcome ⊢
  rcases hsends with ⟨hservice, hnobody⟩ | ⟨command, hopen, hbroker, hdata⟩
  · -- A command that only wakes the task has nobody to be told.
    cases houtcome with
    | services => exact ⟨s, .refl hchecked⟩
    | timedOut =>
        refine ⟨s, ?_⟩
        show FollowedBy _ s _ (prvNotifyRequestingTask received.xNotificationData
          .operationTimedOut false (checkedSession user received c).world).2 s
        rw [notify_requesting_task_none (request_of_none hnobody)]
        exact .refl hchecked
    | disconnects hevent => exact absurd hservice hevent
    | publishes hevent => exact absurd hservice hevent
    | submits hevent => exact absurd hservice hevent
  · rw [hbroker] at hchecked ⊢
    -- The library is called, and the task of the command is told of the outcome.
    have htold : ∀ {op : Op} {called : Session (Endpoint E)} (code : MQTTNotifyCode)
        (uxStatus : Bool), Does (initParams user) op (checkedSession user received c) called →
        ∃ s', FollowedBy command.uxBrokerNumber s (checkedSession user received c).world
          (prvNotifyRequestingTask received.xNotificationData code uxStatus called.world).2 s' := by
      intro op called code uxStatus hdoes
      obtain ⟨s', hcalled, hkeeps⟩ := does_followed hdoes hchecked
      rw [hdata]
      obtain ⟨s'', hnotified⟩ := notify_followed hcalled.knows (hkeeps command hopen) code uxStatus
      exact ⟨s'', hcalled.trans hnotified⟩
    cases houtcome with
    | services => exact ⟨s, .refl hchecked⟩
    | timedOut =>
        rw [hdata]
        exact notify_followed hchecked hopen .operationTimedOut false
    | disconnects _ code uxStatus =>
        exact htold code uxStatus (does_disconnect (initParams user) _)
    | publishes _ params _ code uxStatus =>
        exact htold code uxStatus (does_mqtt_publish (initParams user) params _).1
    | submits _ code hrun =>
        rw [hdata] at hrun ⊢
        exact initiate_followed code hrun hchecked hopen

/-! ## Rounds -/

namespace MQTTAgent

/-- The entries of all connections are known to the commands. -/
structure KnownBy (s : AgentSystem) (agent : MQTTAgent E) : Prop where
  accounted : Accounted s
  entries : ∀ broker x, SameEntry (s.entry broker x) ((agent.connections broker).entry x)

/-- What happens to the agent is what the MQTT task does among the commands. -/
structure FollowedBy (s : AgentSystem) (agent agent' : MQTTAgent E) (s' : AgentSystem) :
    Prop where
  follows : ∃ later, agent'.outputs = agent.outputs ++ later ∧ Follows s later s'
  known : agent'.KnownBy s'

theorem FollowedBy.trans {agent'' : MQTTAgent E} (hfirst : agent.FollowedBy s agent' s')
    (hsecond : agent'.FollowedBy s' agent'' s'') : agent.FollowedBy s agent'' s'' := by
  obtain ⟨later, houtputs, hfollows⟩ := hfirst.follows
  obtain ⟨later', houtputs', hfollows'⟩ := hsecond.follows
  refine ⟨⟨later ++ later', ?_, hfollows.trans hfollows'⟩, hsecond.known⟩
  rw [houtputs', houtputs, List.append_assoc]

/-- Nobody is notified. -/
theorem followed_quiet (h : agent.KnownBy s) (hsame : agent'.connections = agent.connections)
    (houtputs : agent'.outputs = agent.outputs ++ later)
    (hquiet : ∀ task value, .notified task value ∉ later) : agent.FollowedBy s agent' s := by
  refine ⟨⟨later, houtputs, follows_quiet hquiet⟩, h.accounted, fun broker x => ?_⟩
  rw [hsame]
  exact h.entries broker x

/-- Something done in the session of one connection. -/
theorem followed_store {c : Session (Endpoint E)} (h : agent.KnownBy s)
    (hsession : Agent.FollowedBy broker s (agent.session broker).world c.world s') :
    agent.FollowedBy s (agent.store broker c) s' := by
  refine ⟨hsession.follows, hsession.knows.accounted, fun other x => ?_⟩
  by_cases hother : other = broker
  · subst hother
    rw [(store_at other c agent).2.1]
    exact hsession.knows.entries x
  · rw [(same_at_store hother c agent).connection, hsession.others other hother x]
    exact h.entries other x

end MQTTAgent

theorem known_initial (xMQTTTaskHandle : TaskHandle) (memory : Fin maxBrokers → MQTTContext)
    (environment : E) :
    (MQTTAgent.initial memory environment).KnownBy (.initial xMQTTTaskHandle) :=
  ⟨accounted_initial xMQTTTaskHandle, fun _ _ => Or.inl rfl⟩

theorem followed_kept_by_connections (user : Environment E) (start : MQTTAgent E) :
    KeptByConnections user fun agent => agent.Linked ∧ ∃ s', start.FollowedBy s agent s' := by
  intro agent broker h
  obtain ⟨hlinked, s', hfollowed⟩ := h
  obtain ⟨received, hreceived, hlater⟩ := linked_kept_by_connections user agent broker hlinked
  have hknows : Knows broker s' (agent.session broker).world.connection :=
    ⟨hfollowed.known.accounted, hfollowed.known.entries broker⟩
  obtain ⟨received', hreceived', -, s'', hsession⟩ := manage_session
    (followed_kept_by_managing user (agent.session broker)) (hlinked broker).base
      ⟨s', .refl hknows⟩
  rw [hreceived] at hreceived'
  cases hreceived'
  exact ⟨received, hreceived, hlater, s'',
    hfollowed.trans (MQTTAgent.followed_store hfollowed.known hsession)⟩

/-- A command of the MQTT task. -/
theorem command_followed (user : Environment E) {received : MQTTEventData}
    (hsends : s.Sends received) (h : agent.KnownBy s) :
    ∃ s', agent.FollowedBy s (agent.command user received) s' := by
  have hreceived : agent.FollowedBy s (agent.receive received.xNotificationData) s := by
    refine MQTTAgent.followed_quiet h rfl rfl fun task value hmem => ?_
    cases List.mem_singleton.mp hmem
  obtain ⟨s', hprocessed⟩ := process_followed user hsends
    (c := (agent.receive received.xNotificationData).session received.uxBrokerNumber)
    ⟨h.accounted, h.entries received.uxBrokerNumber⟩
  exact ⟨s', hreceived.trans (MQTTAgent.followed_store hreceived.known hprocessed)⟩

/-- An event that is not one of the MQTT task leaves the entries alone. -/
theorem known_outside {event : CommandEvent} (h : agent.KnownBy s) (houtside : ¬ event.Serves)
    (hstep : commandStep s event = some s') : agent.KnownBy s' := by
  have hcases := command_step hstep
  refine ⟨h.accounted.step hcases, ?_⟩
  cases hcases with
  | issue _ _ =>
      intro broker x
      unfold AgentSystem.entry
      rw [issue_connections]
      exact h.entries broker x
  | store _ _ _ => exact absurd trivial houtside
  | answer _ => exact absurd trivial houtside
  | acknowledge _ => exact absurd trivial houtside
  | disconnect _ => exact absurd trivial houtside
  | _ => exact h.entries

/-- The MQTT task runs beside the tasks as the machine of commands says: from the start and whatever
the tasks do, the entries of the waiting tasks are known to the commands, and then every round that
takes what has been sent is a sequence of the events of the MQTT task, after which the tasks have
been notified as the agent has put out and the entries are known again. -/
theorem rounds_among_commands (user : Environment E) :
    (∀ xMQTTTaskHandle memory environment,
      (MQTTAgent.initial memory environment : MQTTAgent E).KnownBy (.initial xMQTTTaskHandle)) ∧
    (∀ (agent : MQTTAgent E) s event s', agent.KnownBy s → ¬ event.Serves →
      commandStep s event = some s' → agent.KnownBy s') ∧
    ∀ (agent : MQTTAgent E) s received, agent.Linked → agent.KnownBy s →
      (∀ command ∈ received, s.Sends command) → ∃ agent' events s' later,
        agentStep user agent received = some agent' ∧ agent'.Linked ∧
        (∀ event ∈ events, event.Serves) ∧ run commandStep events s = some s' ∧
        agent'.outputs = agent.outputs ++ later ∧
        s'.notification = later.foldl AgentOutput.notify s.notification ∧ agent'.KnownBy s' := by
  refine ⟨fun handle memory environment => known_initial handle memory environment,
    fun _ _ _ _ h houtside hstep => known_outside h houtside hstep,
    fun agent s received hlinked h hsends => ?_⟩
  have hstart : agent.FollowedBy s agent s :=
    MQTTAgent.followed_quiet h rfl (List.append_nil _).symm fun _ _ => List.not_mem_nil
  obtain ⟨agent', hstep, hlinked', s', ⟨later, houtputs, ⟨events, hserves, hrun⟩, hnotified⟩,
      hknown⟩ := task_round_preserves (followed_kept_by_connections user agent)
    (fun _ => ⟨hlinked, s, hstart⟩) fun command hcommand =>
      ⟨hlinked.processed user command, command_followed user (hsends command hcommand) h⟩
  exact ⟨agent', events, s', later, hstep, hlinked', hserves, hrun, houtputs, hnotified, hknown⟩

/-- Task 1 issues its first command and sends it. -/
def sentConnect : List CommandEvent := [.issue 1 firstBroker, .clear 1, .send 1 true]

/-- The first command is a Connect that waits in the first round and is answered in the second. -/
theorem rounds_among_commands_connect :
    ∃ s events s' agent, run commandStep sentConnect (.initial 9) = some s ∧
      run (agentStep slowEnvironment) connectRounds (.initial (fun _ => blankContext) 1) =
        some agent ∧
      (∀ event ∈ events, event.Serves) ∧ run commandStep events s = some s' ∧
      s'.notification 1 = ⟨0x10005, .received⟩ ∧ agent.KnownBy s' := by
  obtain ⟨hstart, houtside, hround⟩ := rounds_among_commands slowEnvironment
  obtain ⟨s, hs⟩ := Option.isSome_iff_exists.mp
    (show (run commandStep sentConnect (.initial 9)).isSome from rfl)
  obtain ⟨issued, hissued, hrest⟩ := Option.bind_eq_some_iff.mp hs
  obtain ⟨cleared, hcleared, hrest⟩ := Option.bind_eq_some_iff.mp hrest
  obtain ⟨sent, hsent, hlast⟩ := Option.bind_eq_some_iff.mp hrest
  obtain rfl : sent = s := Option.some.inj hlast
  have hknown := houtside _ _ _ _ (houtside _ _ _ _ (houtside _ _ _ _
    (hstart 9 (fun _ => blankContext) 1) id hissued) id hcleared) id hsent
  have hcommand : (run commandStep sentConnect (.initial 9)).map (fun s =>
      (s.unanswered, s.stored firstCommand)) = some ([firstCommand], none) := rfl
  rw [hs] at hcommand
  obtain ⟨hunanswered, hstored⟩ := Prod.mk.inj (Option.some.inj hcommand)
  have hopen : sent.Open firstCommand :=
    ⟨by rw [show sent.unanswered = _ from hunanswered]; exact List.mem_singleton_self _, hstored⟩
  -- Two rounds, the second one without a command.
  obtain ⟨waiting, events, s', later, hstep, hlinked, hserves, hrun, houtputs, hnotified, hknown⟩ :=
    hround _ sent connectRounds.head?.join (linked_initial _ _) hknown fun command hcommand => by
      cases hcommand
      exact Or.inr ⟨firstCommand, hopen, rfl, rfl⟩
  obtain ⟨agent, events', s'', later', hstep', -, hserves', hrun', houtputs', hnotified',
      hknown'⟩ := hround waiting s' none hlinked hknown fun command hnone => by cases hnone
  have hrounds : run (agentStep slowEnvironment) connectRounds
      (.initial (fun _ => blankContext) 1) = some agent := by
    show (agentStep slowEnvironment _ connectRounds.head?.join).bind (run _ [none]) = some agent
    rw [hstep, Option.bind_some]
    show (agentStep slowEnvironment waiting none).bind some = some agent
    rw [hstep']
    rfl
  have hlater : agent.outputs = later ++ later' := by
    rw [houtputs', houtputs]
    rfl
  -- Both sides have notified the task of the CONNACK packet.
  have hend : ((run commandStep sentConnect (.initial 9)).bind fun s =>
      (run (agentStep slowEnvironment) connectRounds (.initial (fun _ => blankContext) 1)).map
        fun agent => agent.outputs.foldl AgentOutput.notify s.notification 1) =
      some ⟨0x10005, .received⟩ := rfl
  rw [hs, hrounds] at hend
  refine ⟨sent, events ++ events', s'', agent, hs, hrounds, fun event hmem => ?_,
    run_append_some hrun hrun', ?_, hknown'⟩
  · exact (List.mem_append.mp hmem).elim (hserves event) (hserves' event)
  · rw [hnotified', hnotified, ← List.foldl_append, ← hlater]
    exact Option.some.inj hend

end TivaAws.Agent
