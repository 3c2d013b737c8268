import TivaAws.Shadow.Registered
import TivaAws.Shadow.TopicStrings

/-!
# Cleaning up after a delete

A delete shares the topic of its accepted answer with the callback for deletions by others. The
clean-up searches the callback catalog, unsubscribes from the rejected topic if it finds nothing,
and otherwise does nothing at all, so that it is right only when there was nothing to clean up
(`delete_cleans_up_iff`).
-/

namespace TivaAws.Shadow

open ByteMemory Labelled

/-! ## What a delete should leave behind -/

/-- A Deleted callback is registered for the Thing. -/
def ShadowClient.HasDeletedCallback (client : ShadowClient) (name : List UInt8) : Prop :=
  ∃ entry ∈ client.callbackCatalog, entry.isFor name = true ∧
    entry.shadowDeletedCallback.isSome = true

/-- The subscriptions of the operation are gone, except for one that a callback needs. -/
structure CleanedUp (s s' : ShadowSystem) (name : List UInt8) : Prop where
  rejected : Operation.delete.rejected name ∉ s'.subscriptions
  accepted : Operation.delete.accepted name ∈ s'.subscriptions ↔ s.client.HasDeletedCallback name
  flag : s'.client.deleteSubscribed = false
  others : ∀ topic, topic ≠ Operation.delete.accepted name →
    topic ≠ Operation.delete.rejected name → (topic ∈ s'.subscriptions ↔ topic ∈ s.subscriptions)

/-- Nothing goes wrong with the MQTT calls, and the connection stays. -/
def Event.Smooth : Event → Prop
  | .mqttReturns code _ => code = .success
  | .proceed | .timeOut | .message _ => True
  | .start _ _ | .connect | .disconnect => False

instance : (event : Event) → Decidable event.Smooth
  | .mqttReturns code _ => inferInstanceAs (Decidable (code = .success))
  | .proceed | .timeOut | .message _ => isTrue trivial
  | .start _ _ | .connect | .disconnect => isFalse id

/-- What an event does that is smooth. -/
def smoothStep (environment : Environment) (s : ShadowSystem) (event : Event) :
    Option (ShadowSystem × List ShadowOutput) :=
  if event.Smooth then step environment s event else none

/-- Runs of an operation whose MQTT calls succeed. -/
def SmoothExecutes (environment : Environment) (s : ShadowSystem) (labels : List ShadowOutput)
    (s' : ShadowSystem) : Prop :=
  ∃ event, smoothStep environment s event = some (s', labels)

/-! ## What a delete does -/

/-- The end of the topic of the accepted answer to a delete. -/
def deleteAccepted : List UInt8 := Operation.delete.word ++ topicSuffixAccepted

/-- The end of the topic of the rejected answer to a delete. -/
def deleteRejected : List UInt8 := Operation.delete.word ++ topicSuffixRejected

section Delete

variable (environment : Environment) (start : ShadowSystem) (name : CString)

/-- The subscriptions while the answer is awaited. -/
def awaitedSubscriptions : List (List UInt8) :=
  if start.client.deleteSubscribed then start.subscriptions
  else topicBytes deleteRejected name :: topicBytes deleteAccepted name :: start.subscriptions

/-- The topic buffer before the request. -/
def subscribedBuffer : ByteMemory :=
  if start.client.deleteSubscribed then start.client.topicBuffer
  else fillTopic deleteRejected name (fillTopic deleteAccepted name start.client.topicBuffer)

/-- The topic buffer with which the catalog is searched. -/
def searchedBuffer : ByteMemory :=
  fillTopic deleteAccepted name
    (fillTopic Operation.delete.word name (subscribedBuffer start name))

/-- The clean-up finds an entry of the callback catalog. -/
def FindsEntry : Prop :=
  (prvMatchCallbackTopic environment start.client (searchedBuffer start name)
    (strlen (searchedBuffer start name) topicBufferLength)).isSome = true

instance : Decidable (FindsEntry environment start name) := inferInstanceAs (Decidable (_ = _))

/-- The flag and the subscriptions after the clean-up. -/
def Settles (s : ShadowSystem) : Prop :=
  if FindsEntry environment start name then
    s.client.deleteSubscribed = true ∧ s.subscriptions = awaitedSubscriptions start name
  else
    s.client.deleteSubscribed = false ∧ s.subscriptions =
      (awaitedSubscriptions start name).filter (· ≠ topicBytes deleteRejected name)

/-- The flag, the subscriptions and the buffer in each phase. -/
def DeletePhase (running : Running) (s : ShadowSystem) : Prop :=
  let buffer := s.client.topicBuffer
  match running.phase with
  | .subscribeAccepted =>
      start.client.deleteSubscribed = false ∧ running.topic = topicBytes deleteAccepted name ∧
        s.subscriptions = start.subscriptions ∧
        buffer = fillTopic deleteAccepted name start.client.topicBuffer
  | .subscribeRejected =>
      start.client.deleteSubscribed = false ∧ running.topic = topicBytes deleteRejected name ∧
        s.subscriptions = topicBytes deleteAccepted name :: start.subscriptions ∧
        buffer = subscribedBuffer start name
  | .setFlag =>
      s.subscriptions = awaitedSubscriptions start name ∧ buffer = subscribedBuffer start name
  | .takeSemaphore | .publish =>
      s.client.deleteSubscribed = true ∧ s.subscriptions = awaitedSubscriptions start name ∧
        buffer = subscribedBuffer start name
  | .publishing | .waiting | .giveSemaphore | .cleanUp =>
      s.client.deleteSubscribed = true ∧ s.subscriptions = awaitedSubscriptions start name ∧
        buffer = fillTopic Operation.delete.word name (subscribedBuffer start name)
  | .unsubscribeRejected =>
      ¬ FindsEntry environment start name ∧ running.topic = topicBytes deleteRejected name ∧
        s.subscriptions = awaitedSubscriptions start name
  | .finish => Settles environment start name s
  | .undoAccepted | .unsubscribeAccepted => False

/-- A delete that does not keep its subscriptions, from its start on. -/
structure Deleting (environment : Environment) (start : ShadowSystem)
    (params : ShadowOperationParams) (s : ShadowSystem) : Prop where
  catalog : s.client.callbackCatalog = start.client.callbackCatalog
  running : ∀ running, s.running = some running →
    running.params = shadowOperationCallParams .delete params ∧
      DeletePhase environment start params.thingName running s
  idle : s.running = none → Settles environment start params.thingName s

end Delete

section Steps

variable {environment : Environment} {start s s' : ShadowSystem} {running : Running}
  {params : ShadowOperationParams} {labels : List ShadowOutput}

/-- A delete goes on in a phase. -/
theorem Deleting.of_running (hcatalog : s.client.callbackCatalog = start.client.callbackCatalog)
    (hrunning : s.running = some running)
    (hparams : running.params = shadowOperationCallParams .delete params)
    (hphase : DeletePhase environment start params.thingName running s) :
    Deleting environment start params s := by
  refine ⟨hcatalog, ?_, ?_⟩
  · intro other hother
    rw [hrunning] at hother
    cases hother
    exact ⟨hparams, hphase⟩
  · intro hnone
    rw [hrunning] at hnone
    cases hnone

/-- A delete subscribes to its answers, unless the flag is set. -/
theorem deleting_start :
    Deleting environment s params (startOperation .delete params s).1 := by
  unfold startOperation
  simp only
  split_ifs with hflag
  · refine .of_running rfl rfl rfl ⟨hflag, ?_, rfl, rfl⟩
    exact call_topic_bytes (suffix_accepted .delete) _ _
  · have hset : s.client.deleteSubscribed = true := Bool.not_eq_false _ ▸ hflag
    refine .of_running rfl rfl rfl ⟨?_, ?_⟩
    · rw [awaitedSubscriptions, if_pos hset]
      rfl
    · rw [subscribedBuffer, if_pos hset]
      rfl

/-- The clean-up searches the catalog, and unsubscribes only if it finds nothing. -/
theorem Deleting.clean_up (hkeep : params.keepSubscriptions = false)
    (hcatalog : s.client.callbackCatalog = start.client.callbackCatalog)
    (hparams : running.params = shadowOperationCallParams .delete params)
    (hflag : s.client.deleteSubscribed = true)
    (hsubscriptions : s.subscriptions = awaitedSubscriptions start params.thingName)
    (hbuffer : s.client.topicBuffer = fillTopic Operation.delete.word params.thingName
      (subscribedBuffer start params.thingName)) :
    Deleting environment start params (startCleanUp environment running s).1 := by
  have hsearched : (prvCreateTopic s.client.topicBuffer topicBufferLength
      Operation.delete.acceptedTopic params.thingName).2 =
      searchedBuffer start params.thingName := by
    rw [hbuffer]
    rfl
  have hfinds : (prvMatchCallbackTopic environment
        { s.client with topicBuffer := searchedBuffer start params.thingName }
        (searchedBuffer start params.thingName)
        (strlen (searchedBuffer start params.thingName) topicBufferLength)).isNone = true ↔
      ¬ FindsEntry environment start params.thingName := by
    unfold FindsEntry prvMatchCallbackTopic
    rw [hcatalog, ← Option.not_isSome, Bool.not_eq_true', Bool.not_eq_true]
  have hparamsKeep : running.params.operationParams.keepSubscriptions = false := by
    rw [hparams]
    exact hkeep
  unfold startCleanUp
  simp only [hparams, shadowOperationCallParams, hkeep, hsearched, Bool.false_eq_true, if_false,
    if_true]
  split_ifs with hnone
  · refine .of_running hcatalog rfl hparams ⟨hfinds.mp hnone, ?_, hsubscriptions⟩
    simp only [hparams]
    exact call_topic_bytes (suffix_rejected .delete) _ _
  · refine .of_running hcatalog rfl hparams ?_
    show Settles environment start params.thingName _
    unfold Settles
    rw [if_pos (not_not.mp (mt hfinds.mpr hnone))]
    exact ⟨hflag, hsubscriptions⟩

theorem Deleting.proceed (hdeleting : Deleting environment start params s)
    (hkeep : params.keepSubscriptions = false) (hrunning : s.running = some running)
    (h : proceedOperation environment running s = some (s', labels)) :
    Deleting environment start params s' := by
  obtain ⟨hparams, hholds⟩ := hdeleting.running running hrunning
  have hcatalog := hdeleting.catalog
  unfold DeletePhase at hholds
  cases proceed_cases h with
  | setFlag hphase =>
      simp only [hphase] at hholds
      obtain ⟨hsubscriptions, hbuffer⟩ := hholds
      refine .of_running ?_ rfl hparams ⟨?_, hsubscriptions, ?_⟩
      · rw [set_flag_catalog]
        exact hcatalog
      · rw [hparams]
        rfl
      · rw [hparams]
        exact hbuffer
  | publish hphase =>
      simp only [hphase] at hholds
      obtain ⟨hflag, hsubscriptions, hbuffer⟩ := hholds
      refine .of_running hcatalog rfl hparams ⟨hflag, hsubscriptions, ?_⟩
      rw [← hbuffer]
      simp only [callPublish, callWithTopic, hparams]
      rfl
  | takeSemaphore hphase | collect hphase | giveSemaphore hphase =>
      simp only [hphase] at hholds
      exact .of_running hcatalog rfl hparams hholds
  -- The search of the callback catalog decides here what is unsubscribed from.
  | cleanUp hphase =>
      simp only [hphase] at hholds
      obtain ⟨hflag, hsubscriptions, hbuffer⟩ := hholds
      exact Deleting.clean_up hkeep hcatalog hparams hflag hsubscriptions hbuffer
  | finish hphase =>
      simp only [hphase] at hholds
      exact ⟨hcatalog, fun _ hsome => (by cases hsome), fun _ => hholds⟩

/-- An MQTT call of the operation succeeds. -/
theorem Deleting.returns (hdeleting : Deleting environment start params s)
    (hrunning : s.running = some running)
    (h : returnMQTT .success running
      { s with subscriptions := brokerEffect running s.subscriptions } = some (s', labels)) :
    Deleting environment start params s' := by
  obtain ⟨hparams, hholds⟩ := hdeleting.running running hrunning
  have hcatalog := hdeleting.catalog
  unfold DeletePhase at hholds
  unfold brokerEffect at h
  cases return_cases h with
  | acceptedSubscribed hphase =>
      simp only [hphase] at hholds ⊢
      obtain ⟨hflag, htopic, hsubscriptions, hbuffer⟩ := hholds
      refine .of_running hcatalog rfl hparams ⟨hflag, ?_, ?_, ?_⟩
      · simp only [hparams]
        exact call_topic_bytes (suffix_rejected .delete) _ _
      · show running.topic :: s.subscriptions = _
        rw [htopic, hsubscriptions]
      · rw [subscribedBuffer, hflag, if_neg Bool.false_ne_true, ← hbuffer]
        simp only [callSubscribe, callWithTopic, hparams]
        rfl
  | rejectedSubscribed hphase =>
      simp only [hphase] at hholds ⊢
      obtain ⟨hflag, htopic, hsubscriptions, hbuffer⟩ := hholds
      refine .of_running hcatalog rfl hparams ⟨?_, hbuffer⟩
      show running.topic :: s.subscriptions = _
      rw [htopic, hsubscriptions, awaitedSubscriptions, hflag, if_neg Bool.false_ne_true]
  | published hphase =>
      simp only [hphase] at hholds ⊢
      exact .of_running hcatalog rfl hparams hholds
  | rejectedUnsubscribed hphase =>
      simp only [hphase] at hholds ⊢
      obtain ⟨hnone, htopic, hsubscriptions⟩ := hholds
      refine .of_running ?_ rfl hparams ?_
      · rw [set_flag_catalog]
        exact hcatalog
      · show Settles environment start params.thingName _
        unfold Settles
        rw [if_neg hnone, hparams, htopic, hsubscriptions]
        exact ⟨rfl, rfl⟩
  -- Nothing is undone if all calls succeed, and a delete does not unsubscribe from its accepted
  -- topic.
  | undone hphase | acceptedUnsubscribed hphase => simp only [hphase] at hholds
  | acceptedFails _ hcode | rejectedFails _ hcode | publishFails _ hcode | rejectedStays _ hcode =>
      exact absurd rfl hcode

/-- What a delete has to do with a client is left alone. -/
theorem Deleting.congr (hdeleting : Deleting environment start params s)
    (hcatalog : s'.client.callbackCatalog = s.client.callbackCatalog)
    (hflag : s'.client.deleteSubscribed = s.client.deleteSubscribed)
    (hbuffer : s'.client.topicBuffer = s.client.topicBuffer)
    (hsubscriptions : s'.subscriptions = s.subscriptions) (hrunning : s'.running = s.running) :
    Deleting environment start params s' := by
  refine ⟨hcatalog.trans hdeleting.catalog, ?_, ?_⟩
  · intro running hsome
    obtain ⟨hparams, hphase⟩ := hdeleting.running running (hrunning ▸ hsome)
    refine ⟨hparams, ?_⟩
    unfold DeletePhase Settles at hphase ⊢
    rw [hflag, hbuffer, hsubscriptions]
    exact hphase
  · intro hnone
    have hsettles := hdeleting.idle (hrunning ▸ hnone)
    unfold Settles at hsettles ⊢
    rw [hflag, hsubscriptions]
    exact hsettles

theorem Deleting.message (environment' : Environment)
    (hdeleting : Deleting environment start params s) (publish : MQTTPublishData)
    (halted : Bool) :
    Deleting environment start params
      { s with
        client := (shadowMQTTCallbackPublish environment' publish s.client).2.1
        halted } := by
  rcases handled_cases environment' publish s.client with ⟨hsame, -, -⟩ | ⟨data, -, -, hchange, -⟩
  · rw [hsame]
    exact hdeleting.congr rfl rfl rfl rfl rfl
  · rw [hchange]
    exact hdeleting.congr rfl rfl rfl rfl rfl

/-- A step of a delete whose MQTT calls succeed. -/
theorem SmoothExecutes.deleting (hkeep : params.keepSubscriptions = false)
    (hdeleting : Deleting environment start params s)
    (h : SmoothExecutes environment s labels s') : Deleting environment start params s' := by
  obtain ⟨event, hevent⟩ := h
  unfold smoothStep at hevent
  split_ifs at hevent with hsmooth
  obtain ⟨-, hcases⟩ := step_cases hevent
  cases event with
  | start operation others => exact hsmooth.elim
  | connect => exact hsmooth.elim
  | disconnect => exact hsmooth.elim
  | proceed =>
      obtain ⟨running, hrunning, hproceed⟩ := hcases
      exact hdeleting.proceed hkeep hrunning hproceed
  | mqttReturns code effect =>
      have hcode : code = .success := hsmooth
      subst hcode
      obtain ⟨heffect, -, running, hrunning, hreturn⟩ := hcases
      rw [if_pos (heffect rfl)] at hreturn
      exact hdeleting.returns hrunning hreturn
  | timeOut =>
      obtain ⟨running, hrunning, hwaiting, -, rfl, -⟩ := hcases
      obtain ⟨hparams, hphase⟩ := hdeleting.running running hrunning
      unfold DeletePhase at hphase
      rw [hwaiting] at hphase
      exact .of_running hdeleting.catalog rfl hparams hphase
  | message publish =>
      obtain ⟨-, rfl, -⟩ := hcases
      exact hdeleting.message environment publish _

end Steps

/-! ## When the clean-up is right -/

section CleanUp

variable {environment : Environment} {start s : ShadowSystem} {name : CString}

/-- The state before a delete in which its clean-up is right. The search finds nothing, so that no
callback needs the accepted topic; and nothing is subscribed to it, because the flag is set from
another Thing. If the topics do not fit in the buffer, the empty topic takes their place. -/
def CleansUp (environment : Environment) (start : ShadowSystem) (name : CString) : Prop :=
  ¬ FindsEntry environment start name ∧
    if Operation.delete.Fits name.bytes then
      start.client.deleteSubscribed = true ∧
        Operation.delete.accepted name.bytes ∉ start.subscriptions
    else
      Operation.delete.rejected name.bytes ∉ start.subscriptions ∧
        topicBytes deleteRejected name ∉ start.subscriptions ∧
        (start.client.deleteSubscribed = true ∨
          topicBytes deleteAccepted name ∈ start.subscriptions ∨
            topicBytes deleteAccepted name = topicBytes deleteRejected name) ∧
        (Operation.delete.accepted name.bytes ∈ start.subscriptions ↔
          start.client.HasDeletedCallback name.bytes)

/-- The search finds the entry of a registered Thing. -/
theorem match_catalog_registered {received : ByteMemory} {length : Nat}
    {catalog : List CallbackCatalogEntry} {topic : List UInt8} (buffer : ByteMemory)
    (hregistered : ∃ entry ∈ catalog, entry.inUse = true ∧
      createdTopic [] entry.thingName = some topic)
    (hreceived : received.readBytes 0 topic.length = topic) :
    (matchCatalog received length catalog buffer).isSome = true := by
  induction catalog generalizing buffer with
  | nil =>
      obtain ⟨entry, hmem, -⟩ := hregistered
      exact absurd hmem List.not_mem_nil
  | cons entry rest ih =>
      obtain ⟨found, hmem, hunused, hcreated⟩ := hregistered
      unfold matchCatalog
      simp only
      rcases List.mem_cons.mp hmem with rfl | hmem
      · rw [if_pos hunused, if_pos ((compare_thing hcreated received buffer).mpr hreceived)]
        rfl
      · have hrest := fun buffer => ih buffer ⟨found, hmem, hunused, hcreated⟩
        split_ifs
        · rfl
        · exact hrest _
        · exact hrest _

/-- The topics of both answers are as long. -/
theorem delete_fits_iff (name : List UInt8) :
    (Operation.delete.Fits name ↔
      (topicPrefix ++ deleteAccepted).length + name.length < topicBufferLength) ∧
    (topicPrefix ++ deleteAccepted).length = (topicPrefix ++ deleteRejected).length := by
  have hformat : Operation.delete.acceptedTopic = topicPrefix ++ deleteAccepted :=
    List.append_assoc _ _ _
  constructor
  · unfold Operation.Fits
    rw [hformat]
  · decide

/-- Topics that fit are made. -/
theorem created_of_fits (hfits : Operation.delete.Fits name.bytes) :
    createdTopic deleteAccepted name = some (Operation.delete.accepted name.bytes) ∧
      createdTopic deleteRejected name = some (Operation.delete.rejected name.bytes) ∧
      createdTopic [] name = some (shadowTopic name.bytes []) := by
  have hshort : name.bytes.length < 2 ^ 16 := by
    have hbuffer : topicBufferLength < 2 ^ 16 := by decide
    unfold Operation.Fits at hfits
    omega
  have hfitsAccepted : TopicFits deleteAccepted name.bytes := by
    unfold TopicFits
    rw [cut_name_of_short hshort]
    exact (delete_fits_iff name.bytes).1.mp hfits
  have hfitsRejected : TopicFits deleteRejected name.bytes := hfitsAccepted.shorter (by decide)
  have hfitsPrefix : TopicFits [] name.bytes := hfitsAccepted.shorter (by decide)
  unfold createdTopic
  rw [if_pos hfitsAccepted, if_pos hfitsRejected, if_pos hfitsPrefix, cut_name_of_short hshort]
  exact ⟨rfl, rfl, rfl⟩

/-- A Thing with a callback is found. -/
theorem finds_registered (hfits : Operation.delete.Fits name.bytes)
    (h : start.client.HasDeletedCallback name.bytes) : FindsEntry environment start name := by
  obtain ⟨entry, hmem, hfor, -⟩ := h
  obtain ⟨haccepted, -, -⟩ := created_of_fits hfits
  obtain ⟨hunused, hname⟩ := Bool.and_eq_true_iff.mp hfor
  have hentry : Operation.delete.Fits entry.thingName.bytes := by
    rw [beq_iff_eq.mp hname]
    exact hfits
  obtain ⟨-, -, hcreated⟩ := created_of_fits hentry
  rw [beq_iff_eq.mp hname] at hcreated
  have hreceived : (searchedBuffer start name).readBytes 0 (shadowTopic name.bytes []).length =
      shadowTopic name.bytes [] := by
    have hbuffer : searchedBuffer start name = (fillTopic Operation.delete.word name
        (subscribedBuffer start name)).writeBytes 0
          (Operation.delete.accepted name.bytes ++ [0]) := by
      unfold searchedBuffer fillTopic deleteAccepted
      rw [create_topic_some (suffix_accepted .delete) _ haccepted]
    rw [hbuffer, Operation.accepted, shadow_topic_append, List.append_assoc]
    exact readBytes_writeBytes_append _ 0 _ _
  exact match_catalog_registered environment.stack ⟨entry, hmem, hunused, hcreated⟩ hreceived

theorem topic_bytes_cases (suffix : List UInt8) (name : CString) :
    topicBytes suffix name = [] ∨ TopicFits suffix name.bytes ∧
      topicBytes suffix name = shadowTopic (cutName name.bytes) suffix := by
  unfold topicBytes
  cases hcreated : createdTopic suffix name with
  | none => exact Or.inl rfl
  | some topic =>
      obtain ⟨hfits, rfl⟩ := created_topic_some hcreated
      exact Or.inr ⟨hfits, rfl⟩

theorem shadow_topic_ne_nil (name suffix : List UInt8) : shadowTopic name suffix ≠ [] := by
  intro h
  have hfront : ascii "$aws/things/" = [] := (List.append_eq_nil_iff.mp h).1
  exact absurd hfront (by decide)

/-- Topics that do not fit are not made. -/
theorem topic_bytes_ne (suffix : List UInt8) (name : CString)
    (hlong : ¬ (topicPrefix ++ suffix).length + name.bytes.length < topicBufferLength) :
    topicBytes suffix name ≠ shadowTopic name.bytes suffix := by
  intro heq
  rcases topic_bytes_cases suffix name with hnil | ⟨hfits, htopic⟩
  · exact shadow_topic_ne_nil name.bytes suffix (heq.symm.trans hnil)
  · have hsame : cutName name.bytes ++ (ascii "/shadow/" ++ suffix) =
        name.bytes ++ (ascii "/shadow/" ++ suffix) :=
      List.append_cancel_left (htopic.symm.trans heq)
    unfold TopicFits at hfits
    rw [List.append_cancel_right hsame] at hfits
    exact hlong hfits

/-- What is made for an answer is not the topic of the other one. -/
theorem topic_bytes_other {suffix suffix' : List UInt8} (name : CString)
    (hne : ∀ name name', shadowTopic name suffix ≠ shadowTopic name' suffix') :
    topicBytes suffix name ≠ shadowTopic name.bytes suffix' := by
  intro heq
  rcases topic_bytes_cases suffix name with hnil | ⟨-, htopic⟩
  · exact shadow_topic_ne_nil name.bytes suffix' (heq.symm.trans hnil)
  · exact hne _ _ (htopic.symm.trans heq)

/-- With topics that fit, the operation has subscribed to both of them. -/
theorem cleaned_up_fits (hfits : Operation.delete.Fits name.bytes)
    (hnone : ¬ FindsEntry environment start name)
    (hflag : s.client.deleteSubscribed = false)
    (hsubscriptions : s.subscriptions = (awaitedSubscriptions start name).filter
      (· ≠ topicBytes deleteRejected name)) :
    CleanedUp start s name.bytes ↔ start.client.deleteSubscribed = true ∧
      Operation.delete.accepted name.bytes ∉ start.subscriptions := by
  obtain ⟨haccepted, hrejected, -⟩ := created_of_fits hfits
  have hne := accepted_ne_rejected .delete .delete name.bytes name.bytes
  have hno : ¬ start.client.HasDeletedCallback name.bytes :=
    fun h => hnone (finds_registered hfits h)
  simp only [awaitedSubscriptions, topicBytes, haccepted, hrejected, Option.getD_some]
    at hsubscriptions
  have hleft : Operation.delete.accepted name.bytes ∈ s.subscriptions ↔
      start.client.deleteSubscribed = false ∨
        Operation.delete.accepted name.bytes ∈ start.subscriptions := by
    rw [hsubscriptions]
    cases start.client.deleteSubscribed <;> simp [hne]
  constructor
  · intro hclean
    have hgone := mt hclean.accepted.mp hno
    rw [hleft, not_or, Bool.not_eq_false] at hgone
    exact hgone
  · rintro ⟨hset, hmissing⟩
    refine ⟨?_, ?_, hflag, ?_⟩
    · rw [hsubscriptions]
      simp
    · refine iff_of_false ?_ hno
      rw [hleft, hset]
      simpa using hmissing
    · intro topic _ hother
      rw [hsubscriptions, if_pos hset]
      simp [hother]

/-- With topics that do not fit, it has subscribed to something else. -/
theorem cleaned_up_long (hlong : ¬ Operation.delete.Fits name.bytes)
    (hflag : s.client.deleteSubscribed = false)
    (hsubscriptions : s.subscriptions = (awaitedSubscriptions start name).filter
      (· ≠ topicBytes deleteRejected name)) :
    CleanedUp start s name.bytes ↔
      Operation.delete.rejected name.bytes ∉ start.subscriptions ∧
        topicBytes deleteRejected name ∉ start.subscriptions ∧
        (start.client.deleteSubscribed = true ∨
          topicBytes deleteAccepted name ∈ start.subscriptions ∨
            topicBytes deleteAccepted name = topicBytes deleteRejected name) ∧
        (Operation.delete.accepted name.bytes ∈ start.subscriptions ↔
          start.client.HasDeletedCallback name.bytes) := by
  obtain ⟨hfits, hlength⟩ := delete_fits_iff name.bytes
  rw [hfits] at hlong
  have hacceptedNe : topicBytes deleteAccepted name ≠ Operation.delete.accepted name.bytes :=
    topic_bytes_ne _ name hlong
  rw [hlength] at hlong
  have hrejectedNe : topicBytes deleteRejected name ≠ Operation.delete.rejected name.bytes :=
    topic_bytes_ne _ name hlong
  have hacceptedOther : topicBytes deleteAccepted name ≠ Operation.delete.rejected name.bytes :=
    topic_bytes_other name (accepted_ne_rejected .delete .delete)
  have hrejectedOther : topicBytes deleteRejected name ≠ Operation.delete.accepted name.bytes :=
    topic_bytes_other name fun name name' h =>
      accepted_ne_rejected .delete .delete name' name h.symm
  -- What is subscribed to in the end: the topics that are cut are not those of the delete.
  have hmem : ∀ topic, topic ∈ s.subscriptions ↔
      topic ≠ topicBytes deleteRejected name ∧ (topic ∈ start.subscriptions ∨
        start.client.deleteSubscribed = false ∧ topic = topicBytes deleteAccepted name) := by
    intro topic
    rw [hsubscriptions, List.mem_filter, decide_eq_true_eq, and_comm]
    refine and_congr_right fun hne => ?_
    unfold awaitedSubscriptions
    cases start.client.deleteSubscribed <;> simp [hne, or_comm]
  constructor
  · intro hclean
    refine ⟨fun h => hclean.rejected ((hmem _).mpr ⟨hrejectedNe.symm, Or.inl h⟩), ?_, ?_, ?_⟩
    · intro h
      have hkept := (hclean.others _ hrejectedOther hrejectedNe).mpr h
      exact ((hmem _).mp hkept).1 rfl
    · by_cases hset : start.client.deleteSubscribed = true
      · exact Or.inl hset
      · refine Or.inr ?_
        by_cases hsame : topicBytes deleteAccepted name = topicBytes deleteRejected name
        · exact Or.inr hsame
        · refine Or.inl ((hclean.others _ hacceptedNe hacceptedOther).mp ((hmem _).mpr ⟨hsame, ?_⟩))
          exact Or.inr ⟨Bool.not_eq_true _ ▸ hset, rfl⟩
    · rw [← hclean.accepted, hmem]
      constructor
      · exact fun h => ⟨hrejectedOther.symm, Or.inl h⟩
      · rintro ⟨-, h | ⟨-, h⟩⟩
        · exact h
        · exact absurd h.symm hacceptedNe
  · rintro ⟨hrejected, hempty, hkept, haccepted⟩
    refine ⟨?_, ?_, hflag, ?_⟩
    · intro h
      rcases (hmem _).mp h with ⟨-, h | ⟨-, h⟩⟩
      · exact hrejected h
      · exact hacceptedOther h.symm
    · rw [← haccepted, hmem]
      constructor
      · rintro ⟨-, h | ⟨-, h⟩⟩
        · exact h
        · exact absurd h.symm hacceptedNe
      · exact fun h => ⟨hrejectedOther.symm, Or.inl h⟩
    · intro topic _ _
      rw [hmem]
      constructor
      · rintro ⟨hne, h | ⟨hunset, rfl⟩⟩
        · exact h
        · rcases hkept with hset | h | hsame
          · rw [hunset] at hset
            cases hset
          · exact h
          · exact absurd hsame hne
      · exact fun h => ⟨fun heq => hempty (heq ▸ h), Or.inl h⟩

theorem settles_cleaned_up_iff (h : Settles environment start name s) :
    CleanedUp start s name.bytes ↔ CleansUp environment start name := by
  unfold Settles at h
  unfold CleansUp
  split_ifs at h with hfinds
  · refine iff_of_false ?_ fun hclean => hclean.1 hfinds
    intro hclean
    rw [hclean.flag] at h
    cases h.1
  · rw [and_iff_right hfinds]
    split_ifs with hfits
    · exact cleaned_up_fits hfits hfinds h.1 h.2
    · exact cleaned_up_long hfits h.1 h.2

end CleanUp

/-- After a delete that does not keep its subscriptions and whose MQTT calls all succeed, the
clean-up was right exactly when the search finds nothing and the operation has not subscribed to the
accepted topic. -/
theorem delete_cleans_up_iff {environment : Environment} {start begun finished : ShadowSystem}
    {params : ShadowOperationParams} {labels later : List ShadowOutput}
    (hkeep : params.keepSubscriptions = false)
    (hstart : step environment start (.start .delete params) = some (begun, labels))
    (hrun : Steps (SmoothExecutes environment) begun later finished)
    (hdone : finished.running = none) :
    CleanedUp start finished params.thingName.bytes ↔
      CleansUp environment start params.thingName := by
  have hbegun : Deleting environment start params begun := by
    obtain ⟨-, -, -, -, hbegins⟩ := step_cases hstart
    have hfirst : (startOperation .delete params start).1 = begun := congrArg Prod.fst hbegins
    rw [← hfirst]
    exact deleting_start
  have hfinished : Deleting environment start params finished :=
    Steps.preserves (Deleting environment start params)
      (fun hdeleting hstep => hstep.deleting hkeep hdeleting) hrun hbegun
  exact settles_cleaned_up_iff (hfinished.idle hdone)

/-- A delete on a Thing that keeps its subscriptions and gets no answer. -/
def keptDelete : List Event :=
  [.connect, .start .delete (benchParams 85 other_thing_ne_zero true), succeeds, succeeds, .proceed,
    .proceed, .proceed, succeeds, .timeOut, .proceed, .proceed, .proceed]

/-- A delete from the setting of its flag on that gets no answer. -/
def unansweredDelete : List Event :=
  [.proceed, .proceed, .proceed, succeeds, .timeOut, .proceed, .proceed, succeeds, .proceed]

theorem delete_cleans_up_unsubscribed :
    ∃ labels start begun finished, Steps (Executes benchEnvironment) benchClient labels start ∧
      (∃ labels, step benchEnvironment start
        (.start .delete (benchParams 84 (by decide) false)) = some (begun, labels)) ∧
      (∃ labels, Steps (SmoothExecutes benchEnvironment) begun labels finished) ∧
      CleanedUp start finished [84] := by
  have hrun : ((replay (step benchEnvironment) keptDelete benchClient).any fun first =>
      decide (¬ FindsEntry benchEnvironment first.1 (benchParams 84 (by decide) false).thingName) &&
        first.1.client.deleteSubscribed &&
        decide (Operation.delete.accepted [84] ∉ first.1.subscriptions) &&
      (step benchEnvironment first.1 (.start .delete (benchParams 84 (by decide) false))).any
        fun begun => (replay (smoothStep benchEnvironment) unansweredDelete begun.1).any
          fun last => last.1.running.isNone) = true := by
    decide +kernel
  obtain ⟨⟨start, labels⟩, hfirst, hcheck⟩ := (Option.any_eq_true _ _).mp hrun
  obtain ⟨hcheck, hbegins⟩ := Bool.and_eq_true_iff.mp hcheck
  obtain ⟨hcheck, hmissing⟩ := Bool.and_eq_true_iff.mp hcheck
  obtain ⟨hnone, hflag⟩ := Bool.and_eq_true_iff.mp hcheck
  obtain ⟨⟨begun, labels'⟩, hbegun, hends⟩ := (Option.any_eq_true _ _).mp hbegins
  obtain ⟨⟨finished, later⟩, hlast, hidle⟩ := (Option.any_eq_true _ _).mp hends
  have hsmooth := steps_of_replay hlast
  refine ⟨labels, start, begun, finished, steps_of_replay hfirst, ⟨labels', hbegun⟩,
    ⟨later, hsmooth⟩, ?_⟩
  refine (delete_cleans_up_iff rfl hbegun hsmooth (Option.isNone_iff_eq_none.mp hidle)).mpr
    ⟨of_decide_eq_true hnone, ?_⟩
  have hfits : Operation.delete.Fits (benchParams 84 (by decide) false).thingName.bytes := by decide
  rw [if_pos hfits]
  exact ⟨hflag, of_decide_eq_true hmissing⟩

/-- A registered Thing with a Deleted callback. -/
def deletedEntry : CallbackCatalogEntry where
  inUse := true
  thingName := ⟨[84], bench_name_no_nul⟩
  shadowUpdatedCallback := none
  shadowDeletedCallback := some 1
  shadowDeltaCallback := none

/-- The accepted answer to the delete on the Thing. -/
def acceptedDelete : MQTTPublishData := benchMessage (Operation.delete.accepted [84])

/-- A delete from its first MQTT call on that is accepted. -/
def answeredDelete : List Event :=
  [succeeds, succeeds, .proceed, .proceed, .proceed, succeeds, .message acceptedDelete, .proceed,
    .proceed, .proceed, .proceed]

/-- With a callback, the rejected topic stays subscribed and the flag set. -/
theorem delete_keeps_rejected :
    ∃ start begun finished,
      step benchEnvironment (createdClient [deletedEntry] fun _ => 0) .connect =
        some (start, []) ∧
      (∃ labels, step benchEnvironment start
        (.start .delete (benchParams 84 (by decide) false)) = some (begun, labels)) ∧
      (∃ labels, Steps (SmoothExecutes benchEnvironment) begun labels finished) ∧
      finished.running = none ∧ ¬ CleanedUp start finished [84] := by
  have hrun : ((step benchEnvironment { createdClient [deletedEntry] fun _ => 0 with
        connected := true } (.start .delete (benchParams 84 (by decide) false))).any
      fun begun => (replay (smoothStep benchEnvironment) answeredDelete begun.1).any fun last =>
        last.1.running.isNone &&
          decide (Operation.delete.rejected [84] ∈ last.1.subscriptions)) = true := by
    decide +kernel
  obtain ⟨⟨begun, labels'⟩, hbegun, hends⟩ := (Option.any_eq_true _ _).mp hrun
  obtain ⟨⟨finished, later⟩, hlast, hcheck⟩ := (Option.any_eq_true _ _).mp hends
  obtain ⟨hidle, hrejected⟩ := Bool.and_eq_true_iff.mp hcheck
  exact ⟨_, begun, finished, rfl, ⟨labels', hbegun⟩, ⟨later, steps_of_replay hlast⟩,
    Option.isNone_iff_eq_none.mp hidle, fun hclean => hclean.rejected (of_decide_eq_true hrejected)⟩

end TivaAws.Shadow
