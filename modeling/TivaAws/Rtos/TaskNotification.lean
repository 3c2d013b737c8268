/-!
# Task notifications

The notification value and state of a task, and what the functions of `tasks.c` do to them. A task
that waits passes two critical sections: it enters the wait, and when it runs again it leaves it.
-/

namespace TivaAws.Rtos

/-- `ucNotifyState`: `taskNOT_WAITING_NOTIFICATION`, `taskWAITING_NOTIFICATION` and
`taskNOTIFICATION_RECEIVED`. -/
inductive NotifyState where
  | notWaiting
  | waiting
  | received
  deriving DecidableEq, Repr

/-- `eNotifyAction`. -/
inductive NotifyAction where
  | noAction
  | setBits
  | increment
  | setValueWithOverwrite
  | setValueWithoutOverwrite
  deriving DecidableEq, Repr

/-- What a `TCB_t` keeps about notifications. -/
structure TaskNotification where
  ulNotifiedValue : UInt32
  ucNotifyState : NotifyState
  deriving DecidableEq, Repr

namespace TaskNotification

variable (notification : TaskNotification)

/-- What an action makes of the notification value. -/
def notifiedValue (ulValue : UInt32) : NotifyAction → UInt32
  | .noAction => notification.ulNotifiedValue
  | .setBits => notification.ulNotifiedValue ||| ulValue
  | .increment => notification.ulNotifiedValue + 1
  | .setValueWithOverwrite => ulValue
  | .setValueWithoutOverwrite =>
      if notification.ucNotifyState ≠ .received then ulValue else notification.ulNotifiedValue

/-- `xTaskGenericNotify`. A notification is pending afterwards, also if its value was not
written. -/
def xTaskNotify (ulValue : UInt32) (eAction : NotifyAction) : TaskNotification :=
  ⟨notification.notifiedValue ulValue eAction, .received⟩

/-- `xTaskNotifyStateClear`. -/
def xTaskNotifyStateClear : TaskNotification :=
  if notification.ucNotifyState = .received then { notification with ucNotifyState := .notWaiting }
  else notification

/-- The first critical section of `xTaskNotifyWait` with `ulBitsToClearOnEntry` zero. -/
def enterWait : TaskNotification :=
  if notification.ucNotifyState ≠ .received then { notification with ucNotifyState := .waiting }
  else notification

/-- The second critical section of `xTaskNotifyWait` with `ulBitsToClearOnExit` zero. -/
def leaveWait : TaskNotification :=
  { notification with ucNotifyState := .notWaiting }

end TaskNotification

end TivaAws.Rtos
