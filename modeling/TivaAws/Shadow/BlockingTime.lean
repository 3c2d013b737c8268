import Mathlib.Tactic.Linarith
import Mathlib.Tactic.NormNum
import Mathlib.Tactic.Ring
import TivaAws.Foundation.Delays
import TivaAws.Shadow.Client

/-!
# How long an operation blocks

`prvShadowOperation` seen as the blocking calls it makes, each with the ticks it is given. The ticks
that remain are never counted down: every call is given the whole timeout, and every clean-up call
at least the whole clean-up time.
-/

namespace TivaAws.Shadow

open Delays

/-! ## Ticks -/

/-- `TickType_t`. -/
abbrev TickType := UInt32

/-- `portMAX_DELAY`. -/
def portMaxDelay : TickType := 0xFFFFFFFF

/-- `configTICK_RATE_HZ`. -/
def configTickRateHz : TickType := 1000

/-- `pdMS_TO_TICKS`. -/
def pdMsToTicks (timeInMs : TickType) : TickType := timeInMs * configTickRateHz / 1000

/-- `shadowconfigCLEANUP_TIME_MS`. -/
def cleanUpTimeMs : TickType := 5000

/-- `pdMS_TO_TICKS( shadowconfigCLEANUP_TIME_MS )`. -/
def cleanUpTicks : TickType := pdMsToTicks cleanUpTimeMs

/-- `configMAX`. -/
def configMax (a b : TickType) : TickType :=
  if a > b then a else b

theorem config_max_to_nat (a b : TickType) : (configMax a b).toNat = max a.toNat b.toNat := by
  unfold configMax
  split_ifs with hab
  · exact (max_eq_left (UInt32.lt_iff_toNat_lt.mp hab).le).symm
  · exact (max_eq_right (Nat.not_lt.mp fun h => hab (UInt32.lt_iff_toNat_lt.mpr h))).symm

/-- How long a call with these ticks may block: with `portMAX_DELAY` it blocks until it is done. -/
def tickLimit (ticks : TickType) : ℕ∞ :=
  if ticks = portMaxDelay then ⊤ else (ticks.toNat : ℕ∞)

/-! ## The calls of an operation -/

/-- The calls in which an operation blocks. -/
inductive BlockingCall where
  /-- `xSemaphoreTake` of the operation mutex. -/
  | operationMutex
  | subscribeAccepted
  | subscribeRejected
  /-- The unsubscribe from the accepted topic after the subscribe to the rejected one has failed. -/
  | undoAccepted
  /-- `xSemaphoreTake` of the callback semaphore before the publish. -/
  | callbackSemaphore
  | publish
  /-- `xSemaphoreTake` of the callback semaphore for the answer. -/
  | answer
  | unsubscribeAccepted
  | unsubscribeRejected
  deriving DecidableEq, Repr

/-- What an operation meets on its way: the flag, the catalog and the results of its calls. `answer`
is `none` if the answer does not come in time. -/
structure OperationCourse where
  operation : Operation
  keepSubscriptions : Bool
  operationMutex : Bool
  subscribed : Bool
  subscribeAccepted : MQTTAgentReturnCode
  subscribeRejected : MQTTAgentReturnCode
  publish : MQTTAgentReturnCode
  answer : Option ShadowReturnCode
  callbackRegistered : Bool

/-- `prvShadowSubscribeToAcceptedRejected`, with `xTicksRemaining`. -/
def prvShadowSubscribeToAcceptedRejected (course : OperationCourse) (ticksRemaining : TickType) :
    ShadowReturnCode × List (BlockingCall × TickType) :=
  let accepted := prvConvertMQTTReturnCode course.subscribeAccepted
  if accepted = shadowSuccess then
    let rejected := prvConvertMQTTReturnCode course.subscribeRejected
    (rejected,
      [(.subscribeAccepted, ticksRemaining), (.subscribeRejected, ticksRemaining)] ++
        if rejected = shadowSuccess then [] else [(.undoAccepted, cleanUpTicks)])
  else (accepted, [(.subscribeAccepted, ticksRemaining)])

/-- The calls of `prvShadowUnsubscribeFromAcceptedRejected`, for the topics that are not `NULL`. -/
def prvShadowUnsubscribeFromAcceptedRejected (acceptedTopic rejectedTopic : Bool)
    (ticksRemaining : TickType) : List (BlockingCall × TickType) :=
  (if acceptedTopic then [(.unsubscribeAccepted, ticksRemaining)] else []) ++
    if rejectedTopic then [(.unsubscribeRejected, ticksRemaining)] else []

/-- The request of `prvShadowOperation`: what it returns and the calls from the semaphore to the
answer. -/
def requestCalls (course : OperationCourse) (ticksRemaining : TickType) :
    ShadowReturnCode × List (BlockingCall × TickType) :=
  let calls := [(.callbackSemaphore, ticksRemaining), (.publish, ticksRemaining)]
  let published := prvConvertMQTTReturnCode course.publish
  if published = shadowSuccess then
    (course.answer.getD shadowTimeout, calls ++ [(.answer, ticksRemaining)])
  else (published, calls)

/-- The clean-up of `prvShadowOperation`. With a registered callback a delete does not unsubscribe
at all. -/
def cleanUpCalls (course : OperationCourse) (ticksRemaining : TickType) :
    List (BlockingCall × TickType) :=
  if course.keepSubscriptions then []
  else
    let ticksRemaining := configMax ticksRemaining cleanUpTicks
    if course.operation = .delete then
      if course.callbackRegistered then []
      else prvShadowUnsubscribeFromAcceptedRejected false true ticksRemaining
    else prvShadowUnsubscribeFromAcceptedRejected true true ticksRemaining

/-- `prvShadowOperation`: what it returns, and its blocking calls with their ticks. The mutex of the
operation data is not among them. -/
def prvShadowOperation (course : OperationCourse) (timeoutTicks : TickType) :
    ShadowReturnCode × List (BlockingCall × TickType) :=
  let takeMutex := (BlockingCall.operationMutex, timeoutTicks)
  if course.operationMutex then
    let subscribed :=
      if course.subscribed then (shadowSuccess, [])
      else prvShadowSubscribeToAcceptedRejected course timeoutTicks
    let requested :=
      if subscribed.1 = shadowSuccess then requestCalls course timeoutTicks else (subscribed.1, [])
    (requested.1, takeMutex :: (subscribed.2 ++ requested.2 ++ cleanUpCalls course timeoutTicks))
  else (shadowFailure, [takeMutex])

/-- The limits of the calls. -/
def tickLimits (calls : List (BlockingCall × TickType)) : List ℕ∞ :=
  calls.map fun call => tickLimit call.2

/-- Whatever its calls take within their limits, the operation blocks for the timeout and the
clean-up time at most. -/
def BlocksWithinTimeout (course : OperationCourse) (timeoutTicks : TickType) : Prop :=
  ∀ delays, Within (tickLimits (prvShadowOperation course timeoutTicks).2) delays →
    (delays.sum : ℕ∞) ≤ (timeoutTicks.toNat + cleanUpTicks.toNat : ℕ)

/-! ## Counting the calls -/

/-- Both subscribes succeed. -/
def OperationCourse.subscribes (course : OperationCourse) : Bool :=
  course.subscribeAccepted = .success && course.subscribeRejected = .success

/-- The calls after the mutex that are given the timeout. -/
def OperationCourse.timedCalls (course : OperationCourse) : ℕ :=
  if course.operationMutex then
    (if course.subscribed then 0 else if course.subscribeAccepted = .success then 2 else 1) +
      if course.subscribed ∨ course.subscribes then
        if course.publish = .success then 3 else 2
      else 0
  else 0

/-- The first subscribe is undone. -/
def OperationCourse.undone (course : OperationCourse) : ℕ :=
  if course.operationMutex then
    if course.subscribed then 0
    else if course.subscribeAccepted = .success ∧ course.subscribeRejected ≠ .success then 1
    else 0
  else 0

/-- The unsubscribes of the clean-up. -/
def OperationCourse.unsubscribes (course : OperationCourse) : ℕ :=
  if course.operationMutex then
    if course.keepSubscriptions then 0
    else if course.operation = .delete then if course.callbackRegistered then 0 else 1
    else 2
  else 0

/-- The timeout is a number of ticks, and either nothing is cleaned up and what the calls after the
mutex may take fits into the clean-up time, or there is one call to clean up and no time to wait. -/
def OperationCourse.FitsTimeout (course : OperationCourse) (timeoutTicks : TickType) : Prop :=
  timeoutTicks ≠ portMaxDelay ∧
    (course.undone + course.unsubscribes = 0 ∧
        course.timedCalls * timeoutTicks.toNat ≤ cleanUpTicks.toNat ∨
      course.undone + course.unsubscribes = 1 ∧ timeoutTicks = 0)

/-! ## What the calls may take together -/

section Sums

variable {course : OperationCourse} {timeoutTicks ticks : TickType}

theorem tick_limits_append (calls later : List (BlockingCall × TickType)) :
    (tickLimits (calls ++ later)).sum = (tickLimits calls).sum + (tickLimits later).sum := by
  unfold tickLimits
  rw [List.map_append, List.sum_append]

theorem tick_limits_cons (call : BlockingCall) (ticks : TickType)
    (later : List (BlockingCall × TickType)) :
    (tickLimits ((call, ticks) :: later)).sum = tickLimit ticks + (tickLimits later).sum := by
  unfold tickLimits
  rw [List.map_cons, List.sum_cons]

theorem tick_limits_nil : (tickLimits []).sum = 0 := rfl

/-- What the subscribes may take. -/
theorem subscribe_sum :
    (tickLimits (prvShadowSubscribeToAcceptedRejected course ticks).2).sum =
      (if course.subscribeAccepted = .success then 2 else 1 : ℕ) * tickLimit ticks +
        (if course.subscribeAccepted = .success ∧ course.subscribeRejected ≠ .success then 1 else 0
          : ℕ) * tickLimit cleanUpTicks := by
  unfold prvShadowSubscribeToAcceptedRejected
  simp only [convert_eq_success_iff]
  by_cases haccepted : course.subscribeAccepted = .success
  · by_cases hrejected : course.subscribeRejected = .success
    · simp [haccepted, hrejected, tick_limits_cons, tick_limits_nil, two_mul]
    · simp [haccepted, hrejected, tick_limits_cons, tick_limits_nil, two_mul, add_assoc]
  · simp [haccepted, tick_limits_cons, tick_limits_nil]

/-- What the request may take. -/
theorem request_sum :
    (tickLimits (requestCalls course ticks).2).sum =
      (if course.publish = .success then 3 else 2 : ℕ) * tickLimit ticks := by
  have hthree : (3 : ℕ∞) = 1 + 1 + 1 := by norm_num
  unfold requestCalls
  simp only [convert_eq_success_iff]
  by_cases hpublish : course.publish = .success
  · simp [hpublish, tick_limits_cons, tick_limits_nil, hthree, add_mul, add_assoc]
  · simp [hpublish, tick_limits_cons, tick_limits_nil, two_mul]

/-- What the clean-up may take. -/
theorem clean_up_sum :
    (tickLimits (cleanUpCalls course ticks)).sum =
      (if course.keepSubscriptions then 0
        else if course.operation = .delete then if course.callbackRegistered then 0 else 1
        else 2 : ℕ) * tickLimit (configMax ticks cleanUpTicks) := by
  unfold cleanUpCalls prvShadowUnsubscribeFromAcceptedRejected
  simp only [Bool.false_eq_true, if_true, if_false]
  split_ifs <;> simp [tick_limits_cons, tick_limits_nil, two_mul]

theorem subscribes_iff : course.subscribes = true ↔
    course.subscribeAccepted = .success ∧ course.subscribeRejected = .success := by
  unfold OperationCourse.subscribes
  rw [Bool.and_eq_true, decide_eq_true_eq, decide_eq_true_eq]

/-- The subscribes of `prvShadowOperation` succeed just when both calls do. -/
theorem subscribe_succeeds_iff :
    (prvShadowSubscribeToAcceptedRejected course ticks).1 = shadowSuccess ↔
      course.subscribes = true := by
  rw [subscribes_iff]
  unfold prvShadowSubscribeToAcceptedRejected
  simp only
  split_ifs with haccepted hrejected
  · exact iff_of_true hrejected
      ⟨convert_eq_success_iff.mp haccepted, convert_eq_success_iff.mp hrejected⟩
  · exact iff_of_false hrejected fun h => hrejected (convert_eq_success_iff.mpr h.2)
  · exact iff_of_false haccepted fun h => haccepted (convert_eq_success_iff.mpr h.1)

/-- What all calls may take: the timeout once for the mutex and once for each other timed call, and
the clean-up times. -/
theorem operation_sum :
    (tickLimits (prvShadowOperation course timeoutTicks).2).sum =
      tickLimit timeoutTicks + course.timedCalls * tickLimit timeoutTicks +
        course.undone * tickLimit cleanUpTicks +
        course.unsubscribes * tickLimit (configMax timeoutTicks cleanUpTicks) := by
  unfold prvShadowOperation OperationCourse.timedCalls OperationCourse.undone
    OperationCourse.unsubscribes
  cases hmutex : course.operationMutex with
  | false => simp [tick_limits_cons, tick_limits_nil]
  | true =>
      simp only [if_true, tick_limits_cons, tick_limits_append, clean_up_sum]
      cases hsubscribed : course.subscribed with
      | true =>
          simp only [if_true, true_or, tick_limits_nil, request_sum, Nat.cast_add, Nat.cast_zero]
          ring
      | false =>
          simp only [Bool.false_eq_true, if_false, false_or, subscribe_succeeds_iff, subscribe_sum]
          cases hsubscribes : course.subscribes with
          | true =>
              simp only [if_true, request_sum, Nat.cast_add]
              ring
          | false =>
              simp only [Bool.false_eq_true, if_false, tick_limits_nil, Nat.cast_add, Nat.cast_zero]
              ring

/-- Only a call that has taken the mutex cleans up, and then there are other timed calls. -/
theorem one_le_timed_calls (h : course.undone + course.unsubscribes ≠ 0) :
    1 ≤ course.timedCalls := by
  unfold OperationCourse.undone OperationCourse.unsubscribes at h
  unfold OperationCourse.timedCalls
  cases hmutex : course.operationMutex with
  | false =>
      rw [hmutex] at h
      exact absurd rfl h
  | true =>
      cases hsubscribed : course.subscribed with
      | true =>
          simp only [if_true, true_or]
          split_ifs <;> omega
      | false =>
          simp only [Bool.false_eq_true, if_true, if_false]
          split_ifs <;> omega

end Sums

/-! ## The bound -/

/-- `n` timed calls after a first one, `u` and `v` clean-up calls: they fit just when there is no
clean-up call and the timed calls fit into the clean-up time, or when there is one and no time. -/
theorem calls_fit_iff {t c m n u v : ℕ} (hc : 0 < c) (hm : c ≤ m) (hzero : t = 0 → m = c)
    (hn : u + v ≠ 0 → 1 ≤ n) :
    t + n * t + u * c + v * m ≤ t + c ↔ u + v = 0 ∧ n * t ≤ c ∨ u + v = 1 ∧ t = 0 := by
  have hvm : v * c ≤ v * m := Nat.mul_le_mul_left v hm
  have hsum : (u + v) * c = u * c + v * c := Nat.add_mul u v c
  by_cases hnone : u + v = 0
  · obtain ⟨rfl, rfl⟩ := Nat.add_eq_zero_iff.mp hnone
    omega
  have htimed : t ≤ n * t := Nat.le_mul_of_pos_left t (hn hnone)
  by_cases hone : u + v = 1
  · rw [hone] at hsum
    constructor
    · intro h
      exact .inr ⟨hone, by omega⟩
    · rintro (⟨hnone', -⟩ | ⟨-, rfl⟩)
      · exact absurd hnone' hnone
      · rw [hzero rfl]
        omega
  · refine iff_of_false (fun h => ?_) (by omega)
    have htwo : 2 * c ≤ (u + v) * c := Nat.mul_le_mul_right c (by omega)
    omega

theorem tick_limit_eq {ticks : TickType} (h : ticks ≠ portMaxDelay) :
    tickLimit ticks = (ticks.toNat : ℕ∞) :=
  if_neg h

theorem max_ticks_ne {ticks : TickType} (h : ticks ≠ portMaxDelay) :
    configMax ticks cleanUpTicks ≠ portMaxDelay := by
  unfold configMax
  split_ifs
  · exact h
  · decide

/-- An operation blocks for its timeout and the clean-up time at most, just when the timeout is a
number of ticks and what comes after the mutex fits into the clean-up time. -/
theorem blocks_within_timeout_iff (course : OperationCourse) (timeoutTicks : TickType) :
    BlocksWithinTimeout course timeoutTicks ↔ course.FitsTimeout timeoutTicks := by
  unfold BlocksWithinTimeout OperationCourse.FitsTimeout
  rw [forall_within_iff, operation_sum]
  by_cases hdelay : timeoutTicks = portMaxDelay
  · refine iff_of_false (fun h => ?_) fun h => h.1 hdelay
    rw [show tickLimit timeoutTicks = ⊤ from if_pos hdelay, top_add, top_add, top_add,
      top_le_iff] at h
    exact ENat.natCast_ne_top _ h
  · rw [tick_limit_eq hdelay, tick_limit_eq (max_ticks_ne hdelay), tick_limit_eq (by decide)]
    rw [and_iff_right hdelay]
    have hzero : timeoutTicks.toNat = 0 ↔ timeoutTicks = 0 :=
      ⟨fun h => UInt32.toNat.inj h, fun h => by rw [h]; rfl⟩
    have hmax := config_max_to_nat timeoutTicks cleanUpTicks
    rw [← hzero, ← calls_fit_iff (by decide) (le_of_le_of_eq (le_max_right _ _) hmax.symm) ?_
      one_le_timed_calls]
    · exact_mod_cast Iff.rfl
    · intro h
      rw [hmax, h]
      exact max_eq_right (Nat.zero_le _)

/-- A get of a Thing that waits ten seconds in each of its calls, which all succeed. -/
def slowGet : OperationCourse where
  operation := .get
  keepSubscriptions := false
  operationMutex := true
  subscribed := false
  subscribeAccepted := .success
  subscribeRejected := .success
  publish := .success
  answer := some shadowSuccess
  callbackRegistered := false

/-- With a timeout of ten seconds a get may block for eighty. -/
theorem slow_get_blocks : ¬ BlocksWithinTimeout slowGet 10000 := by
  unfold BlocksWithinTimeout
  rw [forall_within_iff]
  decide

end TivaAws.Shadow
