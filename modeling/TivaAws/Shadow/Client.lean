import TivaAws.Mqtt.Types
import TivaAws.Shadow.Topic

/-!
# The Shadow client

The data of a Shadow client and `prvShadowMQTTCallback`, which the MQTT task calls for every
received message. The JSON functions, the user's callbacks and what is on the stack of the MQTT task
are parameters.
-/

namespace TivaAws.Shadow

open ByteMemory
open Mqtt (MQTTQoS MQTTBufferHandle FunctionPointer)

/-! ## Codes -/

/-- `ShadowReturnCode_t`: negative for jsmn errors, positive for others. -/
abbrev ShadowReturnCode := Int

/-- `eShadowSuccess`. -/
def shadowSuccess : ShadowReturnCode := 0

/-- `eShadowTimeout`. -/
def shadowTimeout : ShadowReturnCode := 1

/-- `eShadowFailure`. -/
def shadowFailure : ShadowReturnCode := 2

/-- `eShadowUnknown`. -/
def shadowUnknown : ShadowReturnCode := 3

/-- `eShadowJSMNInval`. -/
def shadowJSMNInval : ShadowReturnCode := -2

/-- `MQTTAgentReturnCode_t`. -/
inductive MQTTAgentReturnCode where
  | success
  | failure
  | timeout
  | apiCalledFromCallback
  deriving DecidableEq, Repr

/-- `prvConvertMQTTReturnCode`. -/
def prvConvertMQTTReturnCode : MQTTAgentReturnCode → ShadowReturnCode
  | .success => shadowSuccess
  | .timeout => shadowTimeout
  | .failure => shadowFailure
  | .apiCalledFromCallback => shadowFailure

theorem convert_eq_success_iff {code : MQTTAgentReturnCode} :
    prvConvertMQTTReturnCode code = shadowSuccess ↔ code = .success := by
  cases code with
  | success => exact iff_of_true rfl rfl
  | failure => exact iff_of_false (by decide) (by decide)
  | timeout => exact iff_of_false (by decide) (by decide)
  | apiCalledFromCallback => exact iff_of_false (by decide) (by decide)

/-! ## Data -/

/-- A pointer to a document and its length. -/
structure Document where
  memory : ByteMemory
  pointer : Nat
  length : Nat

/-- `MQTTPublishData_t` with the memory its pointers point into. A received packet lies behind the
metadata of its buffer, so there is memory in front of the topic. -/
structure MQTTPublishData where
  memory : ByteMemory
  topic : Nat
  topicLength : Nat
  data : Nat
  dataLength : Nat
  buffer : MQTTBufferHandle
  suffix_le_topic : topicSuffixAccepted.length ≤ topic

namespace MQTTPublishData

/-- What `pucTopic` points to. -/
def topicPointer (publish : MQTTPublishData) : ByteMemory :=
  fun i => publish.memory (publish.topic + i)

/-- What `pvData` and `ulDataLength` describe. -/
def document (publish : MQTTPublishData) : Document :=
  ⟨publish.memory, publish.data, publish.dataLength⟩

end MQTTPublishData

/-- `ShadowOperationParams_t`; `data` stands for `pcData` and `ulDataLength`. -/
structure ShadowOperationParams where
  thingName : CString
  data : Option Document
  buffer : MQTTBufferHandle
  keepSubscriptions : Bool
  qos : MQTTQoS

/-- `ShadowOperationData_t`, with the parameters it points to. -/
structure ShadowOperationData where
  operationInProgress : ShadowOperationName
  operationParams : ShadowOperationParams

/-- `CallbackCatalogEntry_t`. -/
structure CallbackCatalogEntry where
  inUse : Bool
  thingName : CString
  shadowUpdatedCallback : Option FunctionPointer
  shadowDeletedCallback : Option FunctionPointer
  shadowDeltaCallback : Option FunctionPointer

/-- `ShadowClient_t`. The binary semaphore is available or it is not; the mutexes are not kept, as
an operation runs under one and the callback under the other from beginning to end. -/
structure ShadowClient where
  updateSubscribed : Bool
  getSubscribed : Bool
  deleteSubscribed : Bool
  callbackSemaphore : Bool
  operationData : Option ShadowOperationData
  operationResult : ShadowReturnCode
  callbackCatalog : List CallbackCatalogEntry
  topicBuffer : ByteMemory

/-- What the client relies on: `SHADOW_JSONDocClientTokenMatch` and
`SHADOW_JSONGetErrorCodeAndMessage`, the answers of the user's callbacks, and the contents of
uninitialised memory. -/
structure Environment where
  docClientTokenMatch : Document → Document → Bool
  errorCodeAndMessage : Document → ShadowReturnCode
  notify : FunctionPointer → MQTTPublishData → Bool
  stack : ByteMemory

/-- What a client does. `answer` marks a message that is taken for the answer to the operation in
progress. -/
inductive ShadowOutput where
  | subscribe (topic : List UInt8)
  | unsubscribe (topic : List UInt8)
  | request (topic : List UInt8) (message : Option Document)
  | requestFailed
  | take (passed : Bool)
  | timedOut
  | give (passed : Bool)
  | answer (result : ShadowReturnCode)
  | notify (callback : Option FunctionPointer) (operation : ShadowOperationName)
  | finished (returnCode : ShadowReturnCode) (params : ShadowOperationParams)

/-! ## Flags -/

/-- `prvSetSubscribedFlag`. -/
def prvSetSubscribedFlag (operation : ShadowOperationName) (value : Bool) (client : ShadowClient) :
    ShadowClient :=
  match operation with
  | .update => { client with updateSubscribed := value }
  | .get => { client with getSubscribed := value }
  | .delete => { client with deleteSubscribed := value }
  | _ => client

/-- `prvGetSubscribedFlag`. -/
def prvGetSubscribedFlag (operation : ShadowOperationName) (client : ShadowClient) : Bool :=
  match operation with
  | .update => client.updateSubscribed
  | .get => client.getSubscribed
  | .delete => client.deleteSubscribed
  | _ => false

/-! ## Matching topics -/

/-- `prvParseShadowOperationStatus`. The suffix is looked for at the end of the topic, even if the
topic is shorter than the suffix. -/
def prvParseShadowOperationStatus (publish : MQTTPublishData) : ShadowReturnCode :=
  let endsWith (suffix : List UInt8) : Bool :=
    strncmp (fun i => publish.memory (publish.topic + publish.topicLength - suffix.length + i))
      (fun i => suffix.getD i 0) 0 suffix.length
  if endsWith topicSuffixAccepted then shadowSuccess
  else if endsWith topicSuffixRejected then shadowFailure
  else shadowUnknown

/-- A comparison of `prvMatchCallbackTopic`: the topic made from a format and a Thing name against
the received one. Returns the buffer as well. -/
def compareTopic (topicFormat : List UInt8) (thingName : CString) (topic : ByteMemory)
    (compareLength : Nat → Nat) (buffer : ByteMemory) : Bool × ByteMemory :=
  let created := prvCreateTopic buffer topicBufferLength topicFormat thingName
  (strncmp created.2 topic 0 (compareLength created.1), created.2)

/-- The operation that `prvMatchCallbackTopic` finds in the topic of a registered Thing. -/
def matchOperation (thingName : CString) (topic : ByteMemory) (topicLength : Nat)
    (buffer : ByteMemory) : ShadowOperationName :=
  let documents := compareTopic topicUpdateDocuments thingName topic (max · topicLength) buffer
  if documents.1 then .updateDocuments
  else
    let delta := compareTopic topicUpdateDelta thingName topic (max · topicLength) documents.2
    if delta.1 then .updateDelta
    else
      let deleted := compareTopic Operation.delete.acceptedTopic thingName topic
        (max · topicLength) delta.2
      if deleted.1 then .deletedByAnother else .other

/-- The loop of `prvMatchCallbackTopic`: the first entry in use whose Thing the topic begins
with. -/
def matchCatalog (topic : ByteMemory) (topicLength : Nat) :
    List CallbackCatalogEntry → ByteMemory → Option (CallbackCatalogEntry × ShadowOperationName)
  | [], _ => none
  | entry :: rest, buffer =>
      if entry.inUse then
        let found := compareTopic topicPrefix entry.thingName topic id buffer
        if found.1 then
          some (entry, matchOperation entry.thingName topic topicLength found.2)
        else matchCatalog topic topicLength rest found.2
      else matchCatalog topic topicLength rest buffer

/-- `prvMatchCallbackTopic`: the entry and the operation, `none` for `NULL`. -/
def prvMatchCallbackTopic (environment : Environment) (client : ShadowClient) (topic : ByteMemory)
    (topicLength : Nat) : Option (CallbackCatalogEntry × ShadowOperationName) :=
  matchCatalog topic topicLength client.callbackCatalog environment.stack

/-! ## Answers -/

variable (environment : Environment)

/-- `configASSERT( xSemaphoreGive( pxShadowClient->xCallbackSemaphore ) == pdPASS )`. -/
def giveCallbackSemaphore (client : ShadowClient) : ShadowClient × List ShadowOutput :=
  ({ client with callbackSemaphore := true }, [.give (!client.callbackSemaphore)])

/-- `prvGetErrorCodeAndMessage`. -/
def prvGetErrorCodeAndMessage (document : Document) : ShadowReturnCode :=
  let errorCode := environment.errorCodeAndMessage document
  if errorCode = 0 then shadowJSMNInval else errorCode

/-- Whether a message has the client token of the update. -/
def clientTokenMatches (params : ShadowOperationParams) (publish : MQTTPublishData) : Bool :=
  match params.data with
  | some document => environment.docClientTokenMatch document publish.document
  | none => false

/-- `prvShadowUpdateCallback`: nothing for a message whose client token is another one. -/
def prvShadowUpdateCallback (result : ShadowReturnCode) (params : ShadowOperationParams)
    (publish : MQTTPublishData) (client : ShadowClient) : ShadowClient × List ShadowOutput :=
  if clientTokenMatches environment params publish then
    let given := giveCallbackSemaphore
      { client with
        operationResult :=
          if result = shadowFailure then prvGetErrorCodeAndMessage environment publish.document
          else result }
    (given.1, .answer result :: given.2)
  else (client, [])

/-- `prvShadowGetCallback`, which fills in the parameters of the operation. -/
def prvShadowGetCallback (result : ShadowReturnCode) (data : ShadowOperationData)
    (publish : MQTTPublishData) (client : ShadowClient) : ShadowClient × List ShadowOutput :=
  let params :=
    if result = shadowSuccess then
      { data.operationParams with data := some publish.document, buffer := publish.buffer }
    else { data.operationParams with data := none }
  let given := giveCallbackSemaphore
    { client with
      operationResult :=
        if result = shadowSuccess then result
        else prvGetErrorCodeAndMessage environment publish.document
      operationData := some { data with operationParams := params } }
  (given.1, .answer result :: given.2)

/-- `prvShadowDeleteCallback`. -/
def prvShadowDeleteCallback (result : ShadowReturnCode) (publish : MQTTPublishData)
    (client : ShadowClient) : ShadowClient × List ShadowOutput :=
  let given := giveCallbackSemaphore
    { client with
      operationResult :=
        if result = shadowFailure then prvGetErrorCodeAndMessage environment publish.document
        else result }
  (given.1, .answer result :: given.2)

/-- The operation in progress, if the topic of a message begins like the topic buffer and ends with
one of the two suffixes. -/
def matchOperationInProgress (publish : MQTTPublishData) (client : ShadowClient) :
    Option ShadowOperationData :=
  client.operationData.filter fun data =>
    strncmp publish.topicPointer client.topicBuffer 0
      (min (strlen client.topicBuffer topicBufferLength) publish.topicLength) &&
    prvParseShadowOperationStatus publish != shadowUnknown &&
    data.operationInProgress != .other

/-- What `prvShadowMQTTCallback` does with a message for the operation in progress, and whether it
takes the buffer. -/
def answerOperation (data : ShadowOperationData) (publish : MQTTPublishData)
    (client : ShadowClient) : Bool × ShadowClient × List ShadowOutput :=
  let result := prvParseShadowOperationStatus publish
  match data.operationInProgress with
  | .update =>
      (false, prvShadowUpdateCallback environment result data.operationParams publish client)
  | .get => (result = shadowSuccess, prvShadowGetCallback environment result data publish client)
  | .delete => (false, prvShadowDeleteCallback environment result publish client)
  | _ => (false, client, [])

/-- What `prvShadowMQTTCallback` does with a message for a registered callback. -/
def notifyUser (publish : MQTTPublishData) (client : ShadowClient) :
    Bool × ShadowClient × List ShadowOutput :=
  let answered (callback : Option FunctionPointer) : Bool := match callback with
    | some callback => environment.notify callback publish
    | none => false
  match prvMatchCallbackTopic environment client publish.topicPointer publish.topicLength with
  | some (entry, .updateDocuments) =>
      (answered entry.shadowUpdatedCallback, client,
        [.notify entry.shadowUpdatedCallback .updateDocuments])
  | some (entry, .updateDelta) =>
      (answered entry.shadowDeltaCallback, client, [.notify entry.shadowDeltaCallback .updateDelta])
  | some (entry, .deletedByAnother) =>
      (false, client, [.notify entry.shadowDeletedCallback .deletedByAnother])
  | _ => (false, client, [])

/-- `prvShadowMQTTCallback` for a publish: whether the buffer is taken. -/
def shadowMQTTCallbackPublish (publish : MQTTPublishData) (client : ShadowClient) :
    Bool × ShadowClient × List ShadowOutput :=
  match matchOperationInProgress publish client with
  | some data => answerOperation environment data publish client
  | none => notifyUser environment publish client

/-- `prvShadowMQTTCallback` for a disconnect. -/
def shadowMQTTCallbackDisconnect (client : ShadowClient) : ShadowClient :=
  prvSetSubscribedFlag .delete false
    (prvSetSubscribedFlag .get false (prvSetSubscribedFlag .update false client))

end TivaAws.Shadow
