import TivaAws.Mqtt.Acknowledgment
import TivaAws.Mqtt.SubscriptionInvariant

/-!
# Subscriptions under overlapping requests

An exchange is a connected client and a broker that answers its subscribes and unsubscribes in the
order in which they were sent. The subscription manager should hold, for each filter without a
request that waits, what the last answer on it says. The manager is settled by filter and not by
request, so this holds only of orderly exchanges: no answer removes the entry of a later subscribe,
and no subscribe that is not sent takes away an older entry.
-/

namespace TivaAws.Mqtt

open Session Labelled

variable {W : Type}

/-! ## Exchanges -/

/-- What was requested. -/
inductive RequestKind where
  | subscribe (entry : SubscriptionEntry)
  | unsubscribe

/-- The type of the packet of a request. -/
def RequestKind.packetType : RequestKind → UInt8
  | .subscribe _ => controlSUBSCRIBE
  | .unsubscribe => controlUNSUBSCRIBE

/-- The flags of the packet of a request. -/
def RequestKind.packetFlags : RequestKind → UInt8
  | .subscribe _ => flagsSUBSCRIBE
  | .unsubscribe => flagsUNSUBSCRIBE

/-- A request that was sent. -/
structure Request where
  packetIdentifier : UInt16
  topic : List UInt8
  kind : RequestKind

/-- The answer of the broker to a request; the code is for a subscribe. -/
def Request.answer (request : Request) (code : UInt8) : BrokerPacket :=
  match request.kind with
  | .subscribe _ => subackPacket request.packetIdentifier code
  | .unsubscribe => unsubackPacket request.packetIdentifier

/-- The entry that a request leaves when it is answered with a code. -/
def Request.outcome (request : Request) (code : UInt8) : Option SubscriptionEntry :=
  match request.kind with
  | .subscribe entry => if subACKReturnCode code = some .subACKFailure then none else some entry
  | .unsubscribe => none

/-- A client, what the broker has answered and the requests that wait, both newest first. -/
structure Exchange where
  context : MQTTContext
  answered : List (Request × UInt8)
  pending : List Request

/-- A call of the client or an answer of the broker. -/
inductive ExchangeStep where
  | subscribe (params : MQTTSubscribeParams) (sent : Bool)
  | unsubscribe (params : MQTTUnsubscribeParams) (sent : Bool)
  | answer (code : UInt8)

/-- Steps of an exchange. The pool grants fresh buffers, a request has an identifier that no waiting
one has, and the oldest request is answered first, with a whole packet that arrives in any pieces
and that the pool has a buffer for. -/
inductive Exchanges (user : MQTTInitParams W) : Exchange → ExchangeStep → Exchange → Prop where
  | subscribe {e : Exchange} (params : MQTTSubscribeParams) (w : W) {code : MQTTReturnCode}
      {s : Session W} : user.GrantsFresh e.context w →
      params.packetIdentifier ∉ e.pending.map Request.packetIdentifier →
      mqttSubscribe user params ⟨e.context, w, []⟩ = (code, s) →
      Exchanges user e (.subscribe params (code = .success))
        { e with
          context := s.context
          pending :=
            if code = .success then
              ⟨params.packetIdentifier, params.topic.bytes,
                .subscribe (params.publishCallback, params.publishCallbackContext)⟩ :: e.pending
            else e.pending }
  | unsubscribe {e : Exchange} (params : MQTTUnsubscribeParams) (w : W) {code : MQTTReturnCode}
      {s : Session W} : user.GrantsFresh e.context w →
      params.packetIdentifier ∉ e.pending.map Request.packetIdentifier →
      mqttUnsubscribe user params ⟨e.context, w, []⟩ = (code, s) →
      Exchanges user e (.unsubscribe params (code = .success))
        { e with
          context := s.context
          pending :=
            if code = .success then
              ⟨params.packetIdentifier, params.topic.bytes, .unsubscribe⟩ :: e.pending
            else e.pending }
  | answer {e : Exchange} (oldest : Request) (later : List Request) (code : UInt8)
      (chunks : List (List UInt8)) (w : W) {s : Session W} : user.GrantsFresh e.context w →
      e.pending = later ++ [oldest] → (subACKReturnCode code).isSome →
      chunks.flatten = (oldest.answer code).bytes → ¬ user.Refuses (oldest.answer code) w →
      parseChunks user chunks ⟨e.context, w, []⟩ = some s →
      Exchanges user e (.answer code)
        { context := s.context, answered := (oldest, code) :: e.answered, pending := later }

/-! ## What should hold and when it does -/

namespace Exchange

/-- The newest request on a filter that waits. -/
def newest (topic : List UInt8) (e : Exchange) : Option Request :=
  e.pending.find? fun request => request.topic == topic

/-- What the last answer on a filter says about its entry. -/
def lastAnswer (topic : List UInt8) (e : Exchange) : Option (Option SubscriptionEntry) :=
  (e.answered.find? fun answer => answer.1.topic == topic).map fun answer =>
    answer.1.outcome answer.2

/-- Every filter on which all requests are answered has the entry that the last answer says. -/
def Settled (e : Exchange) : Prop :=
  ∀ topic, e.newest topic = none → ∀ outcome, e.lastAnswer topic = some outcome →
    e.context.subscriptionManager.entryFor topic = outcome

/-- A step that does not disturb another request: an answer that removes a filter has no later
subscribe to that filter behind it, a subscribe that is not sent has no older entry to lose, and the
filter of an unsubscribe fits into the 16 bits that count it with its length. -/
def Orderly (e : Exchange) : ExchangeStep → Prop
  | .subscribe params sent => sent = true ∨
      e.context.subscriptionManager.entryFor params.topic.bytes = none ∨
      (∃ request, e.newest params.topic.bytes = some request ∧ request.kind = .unsubscribe) ∨
      (prvStoreSubscription params.topic.bytes params.publishCallbackContext params.publishCallback
        e.context.subscriptionManager).1 = false
  | .unsubscribe params _ => params.topic.bytes.length + 2 < 2 ^ 16
  | .answer code => ∀ oldest later, e.pending = later ++ [oldest] → oldest.outcome code = none →
      ∀ request ∈ later.find? fun request => request.topic == oldest.topic,
        request.kind = .unsubscribe

end Exchange

/-! ## Sending a request -/

variable {user : MQTTInitParams W}

/-- The buffer is one that the pool grants in a world. -/
def MQTTInitParams.Grants (user : MQTTInitParams W) (w : W) (buffer : MQTTBuffer) : Prop :=
  ∃ requested, ∃ granted : PoolBuffer requested, ∃ w',
    user.getBuffer requested w = (some granted, w') ∧ granted.handle = buffer.handle

theorem grants_of_calls {s s' : Session W} {buffer : MQTTBuffer} {rest : List MQTTOutput}
    (h : Calls user s (.obtained buffer.handle :: rest) s') : user.Grants s.world buffer := by
  cases h.responses with
  | cons hobtained _ =>
      obtain ⟨requested, granted, hgranted, hhandle⟩ := hobtained
      exact ⟨requested, granted, _, hgranted, hhandle⟩

theorem MQTTInitParams.GrantsFresh.not_mem {c : MQTTContext} {w : W} {buffer : MQTTBuffer}
    (h : user.GrantsFresh c w) (hgrants : user.Grants w buffer) :
    buffer.handle ∉ c.txBufferList.map MQTTBuffer.handle := by
  obtain ⟨requested, granted, w', hgranted, hhandle⟩ := hgrants
  rw [← hhandle]
  exact fun hmem => h requested granted w' hgranted (List.mem_append_left _ hmem)

/-- A request on an open connection: its packet is linked in a buffer of the pool, or nothing but
the subscription manager has changed. -/
inductive RequestOutcome (user : MQTTInitParams W) (op : Op) (c : MQTTContext) (w : W)
    (linked failed : MQTTSubscriptionManager) : MQTTReturnCode → MQTTContext → Prop where
  | sent {c' : MQTTContext} (buffer : MQTTBuffer) : buffer.Carries op → user.Grants w buffer →
      c'.txBufferList = buffer :: c.txBufferList → c'.subscriptionManager = linked →
      c'.connectionState = .connected → SameReception c c' →
      RequestOutcome user op c w linked failed .success c'
  | failed {code : MQTTReturnCode} {c' : MQTTContext} : code ≠ .success →
      c'.txBufferList = c.txBufferList → c'.subscriptionManager = failed →
      c'.connectionState = .connected → SameReception c c' →
      RequestOutcome user op c w linked failed code c'

theorem submit_request_outcome {op : Op} {remainingLength : Nat} {write : MQTTBuffer → ByteMemory}
    (timeoutTicks : UInt32) (packetIdentifier : UInt16)
    (hcarries : ∀ buffer : MQTTBuffer, buffer.Holds remainingLength packetIdentifier write →
      buffer.Carries op) (hconnects : ¬ op.Connects) (s : Session W)
    (hstate : s.context.connectionState = .connected) :
    let sent := submitPacket user remainingLength timeoutTicks packetIdentifier write true s
    RequestOutcome user op s.context s.world s.context.subscriptionManager
      s.context.subscriptionManager sent.1 sent.2.context := by
  intro sent
  have houtcome := submit_outcome user timeoutTicks packetIdentifier op hcarries true
    (fun _ => rfl) s (Or.inr ⟨hconnects, hstate⟩)
  change SubmitOutcome user remainingLength packetIdentifier write op true s sent at houtcome
  generalize sent = result at houtcome ⊢
  cases houtcome with
  | pending buffer t t' _ hholds hcalls hcontext =>
      refine .sent buffer (hcarries buffer hholds) (grants_of_calls hcalls) ?_ ?_ ?_ ?_
      · rw [hcontext]
        rfl
      · rw [hcontext]
        rfl
      · rw [hcontext]
        exact hstate
      · rw [hcontext]
        exact ⟨rfl, rfl, rfl, rfl⟩
  | failed hcode _ hcontext =>
      exact .failed hcode (by rw [hcontext]) (by rw [hcontext]) (by rw [hcontext]; exact hstate)
        (by rw [hcontext]; exact ⟨rfl, rfl, rfl, rfl⟩)
  | gone t' hacknowledged => exact absurd hacknowledged (by simp)

/-- `MQTT_Unsubscribe` on an open connection leaves the subscription manager alone. -/
theorem unsubscribe_outcome (params : MQTTUnsubscribeParams) (s : Session W)
    (hstate : s.context.connectionState = .connected) :
    RequestOutcome user (.unsubscribe params) s.context s.world s.context.subscriptionManager
      s.context.subscriptionManager (mqttUnsubscribe user params s).1
      (mqttUnsubscribe user params s).2.context := by
  unfold mqttUnsubscribe
  rw [if_neg (by simpa using hstate)]
  refine submit_request_outcome params.timeoutTicks params.packetIdentifier ?_ id s hstate
  exact fun _ hholds => hholds

/-- `MQTT_Subscribe` on an open connection stores its subscription if the packet is sent. If it is
not sent, a subscription that was stored is removed again. -/
theorem subscribe_outcome (params : MQTTSubscribeParams) (s : Session W)
    (hstate : s.context.connectionState = .connected) :
    let stored := prvStoreSubscription params.topic.bytes params.publishCallbackContext
      params.publishCallback s.context.subscriptionManager
    let sent := mqttSubscribe user params s
    (sent.1 = .success → stored.1 = true) ∧
      RequestOutcome user (.subscribe params) s.context s.world stored.2
        (if stored.1 then prvRemoveSubscription params.topic.bytes stored.2 else stored.2)
        sent.1 sent.2.context := by
  intro stored sent
  have hsent : sent = mqttSubscribe user params s := rfl
  unfold mqttSubscribe at hsent
  rw [if_neg (by simpa using hstate)] at hsent
  simp only at hsent
  change sent = if stored.1 = true then _ else _ at hsent
  by_cases hstored : stored.1 = true
  · rw [if_pos hstored] at hsent
    have hcarries : ∀ buffer : MQTTBuffer,
        buffer.Holds params.remainingLength params.packetIdentifier params.write →
        buffer.Carries (.subscribe params) := fun _ hholds => hholds
    have houtcome : RequestOutcome user (.subscribe params)
        { s.context with subscriptionManager := stored.2 } s.world stored.2 stored.2 _ _ :=
      submit_request_outcome params.timeoutTicks params.packetIdentifier hcarries id
        (s.update fun context => { context with subscriptionManager := stored.2 }) hstate
    refine ⟨fun _ => hstored, ?_⟩
    rw [if_pos hstored, hsent]
    generalize submitPacket user params.remainingLength params.timeoutTicks params.packetIdentifier
      params.write true (s.update fun context => { context with subscriptionManager := stored.2 }) =
      result at houtcome ⊢
    obtain ⟨code, s'⟩ := result
    -- A packet that is not sent takes the stored entry away again.
    cases houtcome with
    | sent buffer hcarries hgrants hlist hmanager hconnected hsame =>
        rw [if_neg (by simp)]
        exact .sent buffer hcarries hgrants hlist hmanager hconnected
          ⟨hsame.state, hsame.length, hsame.header, hsame.buffer⟩
    | failed hcode hlist hmanager hconnected hsame =>
        rw [if_pos hcode]
        refine .failed hcode hlist ?_ hconnected
          ⟨hsame.state, hsame.length, hsame.header, hsame.buffer⟩
        show prvRemoveSubscription _ s'.context.subscriptionManager = _
        rw [show s'.context.subscriptionManager = stored.2 from hmanager]
  · rw [if_neg hstored] at hsent ⊢
    rw [hsent]
    exact ⟨fun hcode => absurd hcode (by simp),
      .failed (by simp) rfl rfl hstate ⟨rfl, rfl, rfl, rfl⟩⟩

/-! ## The packets that wait -/

/-- The buffer holds a SUBSCRIBE or an UNSUBSCRIBE. -/
def MQTTBuffer.HoldsRequest (buffer : MQTTBuffer) : Prop :=
  ∃ kind : RequestKind, buffer.packetType = kind.packetType ∧ buffer.packetFlags = kind.packetFlags

/-- The buffer holds the packet of a request. -/
structure Request.Waits (request : Request) (buffer : MQTTBuffer) : Prop where
  packetType : buffer.packetType = request.kind.packetType
  packetFlags : buffer.packetFlags = request.kind.packetFlags
  identifier : buffer.bufferState.packetIdentifier = request.packetIdentifier
  filter : requestedTopicFilter buffer = request.topic

/-- The requests that wait are the SUBSCRIBE and UNSUBSCRIBE packets on the Tx list. -/
structure Tracks (buffers : List MQTTBuffer) (pending : List Request) : Prop where
  handles : (buffers.map MQTTBuffer.handle).Nodup
  identifiers : (pending.map Request.packetIdentifier).Nodup
  waits : ∀ request ∈ pending, ∃ buffer ∈ buffers, request.Waits buffer
  waited : ∀ buffer ∈ buffers, buffer.HoldsRequest → ∃ request ∈ pending, request.Waits buffer
  distinct : ∀ buffer ∈ buffers, ∀ other ∈ buffers, buffer.HoldsRequest → other.HoldsRequest →
    buffer.bufferState.packetIdentifier = other.bufferState.packetIdentifier → buffer = other

theorem Request.Waits.holds_request {request : Request} {buffer : MQTTBuffer}
    (h : request.Waits buffer) : buffer.HoldsRequest :=
  ⟨request.kind, h.packetType, h.packetFlags⟩

namespace Tracks

variable {buffers : List MQTTBuffer} {pending : List Request} {buffer : MQTTBuffer}
  {request : Request}

/-- A request with a fresh identifier is sent in a fresh buffer. -/
theorem link (h : Tracks buffers pending) (hfresh : buffer.handle ∉ buffers.map MQTTBuffer.handle)
    (hidentifier : request.packetIdentifier ∉ pending.map Request.packetIdentifier)
    (hwaits : request.Waits buffer) : Tracks (buffer :: buffers) (request :: pending) := by
  have hnew : ∀ other ∈ buffers, other.HoldsRequest →
      buffer.bufferState.packetIdentifier ≠ other.bufferState.packetIdentifier := by
    intro other hmem hrequest hsame
    obtain ⟨older, holder, holderWaits⟩ := h.waited other hmem hrequest
    refine hidentifier (List.mem_map.mpr ⟨older, holder, ?_⟩)
    rw [← holderWaits.identifier, ← hsame, hwaits.identifier]
  refine ⟨?_, ?_, ?_, ?_, ?_⟩
  · rw [List.map_cons, List.nodup_cons]
    exact ⟨hfresh, h.handles⟩
  · rw [List.map_cons, List.nodup_cons]
    exact ⟨hidentifier, h.identifiers⟩
  · intro other hmem
    rcases List.mem_cons.mp hmem with rfl | hmem
    · exact ⟨buffer, List.mem_cons_self, hwaits⟩
    · obtain ⟨older, holder, holderWaits⟩ := h.waits other hmem
      exact ⟨older, List.mem_cons_of_mem _ holder, holderWaits⟩
  · intro other hmem hrequest
    rcases List.mem_cons.mp hmem with rfl | hmem
    · exact ⟨request, List.mem_cons_self, hwaits⟩
    · obtain ⟨older, holder, holderWaits⟩ := h.waited other hmem hrequest
      exact ⟨older, List.mem_cons_of_mem _ holder, holderWaits⟩
  · intro first hfirst second hsecond hfirstRequest hsecondRequest hsame
    rcases List.mem_cons.mp hfirst with rfl | hfirstOlder
    · rcases List.mem_cons.mp hsecond with rfl | hsecondOlder
      · rfl
      · exact absurd hsame (hnew second hsecondOlder hsecondRequest)
    · rcases List.mem_cons.mp hsecond with rfl | hsecondOlder
      · exact absurd hsame.symm (hnew first hfirstOlder hfirstRequest)
      · exact h.distinct first hfirstOlder second hsecondOlder hfirstRequest hsecondRequest hsame

/-- The library finds the packet of a request that waits. -/
theorem lookup (h : Tracks buffers pending) (hmem : request ∈ pending) {context : MQTTContext}
    (hlist : context.txBufferList = buffers) :
    ∃ buffer ∈ buffers, prvPacketTypeFlagsIdentifierGetTxBuffer request.kind.packetType
      request.kind.packetFlags request.packetIdentifier context = some buffer ∧
      request.Waits buffer := by
  obtain ⟨waiting, hwaiting, hwaits⟩ := h.waits request hmem
  cases hfind : prvPacketTypeFlagsIdentifierGetTxBuffer request.kind.packetType
      request.kind.packetFlags request.packetIdentifier context with
  | none =>
      rw [prvPacketTypeFlagsIdentifierGetTxBuffer, hlist, List.find?_eq_none] at hfind
      refine absurd ?_ (hfind waiting hwaiting)
      rw [hwaits.packetType, hwaits.packetFlags, hwaits.identifier]
      simp
  | some buffer =>
      obtain ⟨hbuffer, htype, hflags, hidentifier⟩ :=
        packet_type_flags_identifier_get_some hfind
      rw [hlist] at hbuffer
      have hsame := h.distinct buffer hbuffer waiting hwaiting ⟨_, htype, hflags⟩
        hwaits.holds_request (hidentifier.trans hwaits.identifier.symm)
      exact ⟨buffer, hbuffer, rfl, hsame ▸ hwaits⟩

/-- The oldest request is answered and its buffer is unlinked. -/
theorem unlink {later : List Request} {oldest : Request}
    (h : Tracks buffers (later ++ [oldest])) (hbuffer : buffer ∈ buffers)
    (hwaits : oldest.Waits buffer) :
    Tracks (buffers.eraseP fun other => other.handle == buffer.handle) later := by
  have hmem : ∀ {other}, other ∈ buffers.eraseP (fun other => other.handle == buffer.handle) →
      other ∈ buffers := fun hother => List.mem_of_mem_eraseP hother
  have hhandles := map_handle_eraseP buffers buffer.handle
  have hidentifiers := h.identifiers
  rw [List.map_append, List.nodup_append] at hidentifiers
  refine ⟨?_, hidentifiers.1, ?_, ?_, ?_⟩
  · rw [hhandles]
    exact h.handles.erase _
  · intro request hrequest
    obtain ⟨waiting, hwaiting, hwaitingWaits⟩ := h.waits request (List.mem_append_left _ hrequest)
    have hother : waiting.handle ≠ buffer.handle := by
      intro hsame
      have heq := List.inj_on_of_nodup_map h.handles hwaiting hbuffer hsame
      refine hidentifiers.2.2 _ (List.mem_map_of_mem hrequest) _
        (List.mem_map_of_mem (List.mem_singleton_self oldest)) ?_
      rw [← hwaitingWaits.identifier, heq, hwaits.identifier]
    refine ⟨waiting, ?_, hwaitingWaits⟩
    exact (List.mem_eraseP_of_neg (by simpa using hother)).mpr hwaiting
  · intro other hother hrequest
    obtain ⟨request, hpending, hrequestWaits⟩ := h.waited other (hmem hother) hrequest
    rcases List.mem_append.mp hpending with hlater | holdest
    · exact ⟨request, hlater, hrequestWaits⟩
    · rw [List.mem_singleton.mp holdest] at hrequestWaits
      have hsame := h.distinct other (hmem hother) buffer hbuffer hrequest hwaits.holds_request
        (hrequestWaits.identifier.trans hwaits.identifier.symm)
      have herased := List.mem_map_of_mem (f := MQTTBuffer.handle) hother
      rw [hhandles, hsame] at herased
      exact absurd herased h.handles.not_mem_erase
  · exact fun first hfirst second hsecond => h.distinct first (hmem hfirst) second (hmem hsecond)

end Tracks

/-! ## The entry of a filter -/

namespace Exchange

/-- The entry of a filter is that of the newest request if that is a subscribe, and that of the last
answer if no request waits. While an unsubscribe waits the entry may be either. -/
structure Entry (topic : List UInt8) (e : Exchange) : Prop where
  newest : ∀ request entry, e.newest topic = some request → request.kind = .subscribe entry →
    e.context.subscriptionManager.entryFor topic = some entry
  answered : e.newest topic = none → ∀ outcome, e.lastAnswer topic = some outcome →
    e.context.subscriptionManager.entryFor topic = outcome

/-- What holds of an orderly exchange. -/
structure Invariant (e : Exchange) : Prop where
  connected : e.context.connectionState = .connected
  boundary : AtBoundary e.context
  tracks : Tracks e.context.txBufferList e.pending
  kept : e.context.subscriptionManager.WellKept
  entries : ∀ topic, e.Entry topic

theorem Invariant.settled {e : Exchange} (h : e.Invariant) : e.Settled :=
  fun topic => (h.entries topic).answered

theorem newest_cons_self {e : Exchange} {request : Request} (context : MQTTContext) :
    newest request.topic { e with context, pending := request :: e.pending } = some request := by
  simp [newest]

theorem newest_cons_of_ne {e : Exchange} {request : Request} (context : MQTTContext)
    {topic : List UInt8} (h : topic ≠ request.topic) :
    newest topic { e with context, pending := request :: e.pending } = e.newest topic := by
  have hne : (request.topic == topic) = false := beq_eq_false_iff_ne.mpr (Ne.symm h)
  simp [newest, hne]

/-- A change that leaves the requests alone and changes the entry of one filter at most. -/
theorem Entry.congr {e : Exchange} {topic : List UInt8} (h : e.Entry topic) {context : MQTTContext}
    (hsame : context.subscriptionManager.entryFor topic =
      e.context.subscriptionManager.entryFor topic) : Entry topic { e with context } :=
  ⟨fun request entry hnewest hkind => hsame.trans (h.newest request entry hnewest hkind),
    fun hnone outcome hanswer => hsame.trans (h.answered hnone outcome hanswer)⟩

/-- While an unsubscribe waits, the entry may change. -/
theorem Entry.unsubscribing {e : Exchange} {topic : List UInt8} {request : Request}
    (hnewest : e.newest topic = some request) (hkind : request.kind = .unsubscribe)
    (context : MQTTContext) : Entry topic { e with context } := by
  refine ⟨?_, ?_⟩
  · intro found entry hfound hsubscribe
    have hsame : found = request := Option.some.inj (hfound.symm.trans hnewest)
    rw [hsame, hkind] at hsubscribe
    cases hsubscribe
  · intro hnone
    exact absurd (hnone.symm.trans hnewest) (by simp)

/-- A new request whose entry is in the manager, and that changes no other entry. -/
theorem Entry.push {e : Exchange} {topic : List UInt8} (h : e.Entry topic) {context : MQTTContext}
    {request : Request}
    (hself : ∀ entry, request.kind = .subscribe entry →
      context.subscriptionManager.entryFor request.topic = some entry)
    (hother : topic ≠ request.topic → context.subscriptionManager.entryFor topic =
      e.context.subscriptionManager.entryFor topic) :
    Entry topic { e with context, pending := request :: e.pending } := by
  by_cases htopic : topic = request.topic
  · subst htopic
    refine ⟨?_, ?_⟩
    · intro found entry hnewest hkind
      rw [newest_cons_self] at hnewest
      cases hnewest
      exact hself entry hkind
    · intro hnone
      rw [newest_cons_self] at hnone
      exact absurd hnone (by simp)
  · have hsame := hother htopic
    refine ⟨?_, ?_⟩
    · intro found entry hnewest hkind
      rw [newest_cons_of_ne _ htopic] at hnewest
      exact hsame.trans (h.newest found entry hnewest hkind)
    · intro hnone outcome hanswer
      rw [newest_cons_of_ne _ htopic] at hnone
      exact hsame.trans (h.answered hnone outcome hanswer)

/-- The oldest request is answered. -/
theorem Entry.answer {e : Exchange} {topic : List UInt8} (h : e.Entry topic)
    (hkept : e.context.subscriptionManager.WellKept) {oldest : Request} {later : List Request}
    {code : UInt8} (hpending : e.pending = later ++ [oldest])
    (horderly : oldest.outcome code = none →
      ∀ request ∈ later.find? fun request => request.topic == oldest.topic,
        request.kind = .unsubscribe)
    {context : MQTTContext}
    (hmanager : context.subscriptionManager = if oldest.outcome code = none then
      prvRemoveSubscription oldest.topic e.context.subscriptionManager
      else e.context.subscriptionManager) :
    Entry topic
      { context, answered := (oldest, code) :: e.answered, pending := later } := by
  have hnewest : e.newest topic = (later.find? fun request => request.topic == topic).or
      (if oldest.topic = topic then some oldest else none) := by
    rw [Exchange.newest, hpending, List.find?_append]
    by_cases htopic : oldest.topic = topic
    · simp [htopic]
    · simp [htopic]
  by_cases htopic : oldest.topic = topic
  · subst htopic
    rw [if_pos rfl] at hnewest
    refine ⟨?_, ?_⟩
    · intro request entry hfound hkind
      change later.find? _ = some request at hfound
      have hnot : oldest.outcome code ≠ none := by
        intro hnone
        rw [horderly hnone request hfound] at hkind
        cases hkind
      rw [hfound, Option.some_or] at hnewest
      show context.subscriptionManager.entryFor _ = _
      rw [hmanager, if_neg hnot]
      exact h.newest request entry hnewest hkind
    · intro hnone outcome hanswer
      change later.find? _ = none at hnone
      rw [hnone, Option.none_or] at hnewest
      have houtcome : oldest.outcome code = outcome := by
        simpa [lastAnswer] using hanswer
      show context.subscriptionManager.entryFor _ = _
      rw [hmanager, ← houtcome]
      by_cases hremoved : oldest.outcome code = none
      · rw [if_pos hremoved, hkept.entry_for_remove, if_pos rfl, hremoved]
      · rw [if_neg hremoved]
        cases hkind : oldest.kind with
        | unsubscribe =>
            rw [Request.outcome, hkind] at hremoved
            exact absurd rfl hremoved
        | subscribe entry =>
            rw [h.newest oldest entry hnewest hkind]
            rw [Request.outcome, hkind] at hremoved ⊢
            simp only at hremoved ⊢
            split_ifs at hremoved ⊢
            · exact absurd rfl hremoved
            · rfl
  · rw [if_neg htopic, Option.or_none] at hnewest
    have hsame : context.subscriptionManager.entryFor topic =
        e.context.subscriptionManager.entryFor topic := by
      rw [hmanager]
      split_ifs
      · rw [hkept.entry_for_remove, if_neg (Ne.symm htopic)]
      · rfl
    refine ⟨?_, ?_⟩
    · intro request entry hfound hkind
      exact hsame.trans (h.newest request entry (hnewest.trans hfound) hkind)
    · intro hnone outcome hanswer
      refine hsame.trans (h.answered (hnewest.trans hnone) outcome ?_)
      have hne : (oldest.topic == topic) = false := beq_eq_false_iff_ne.mpr htopic
      simpa [lastAnswer, hne] using hanswer

end Exchange

/-! ## Steps of an orderly exchange -/

theorem SameReception.at_boundary {c c' : MQTTContext} (h : SameReception c c')
    (hboundary : AtBoundary c) : AtBoundary c' := by
  rw [AtBoundary, h.state, h.length, h.buffer]
  exact hboundary

/-- The entries after a subscribe that was not sent. -/
theorem entry_for_withdrawn {manager : MQTTSubscriptionManager} (h : manager.WellKept)
    (topic : List UInt8) (context : CallbackContext) (callback : Option FunctionPointer) :
    let stored := prvStoreSubscription topic context callback manager
    let withdrawn := if stored.1 then prvRemoveSubscription topic stored.2 else stored.2
    withdrawn.WellKept ∧ ∀ other, withdrawn.entryFor other =
      if stored.1 = true ∧ other = topic then none else manager.entryFor other := by
  intro stored withdrawn
  obtain ⟨hkept, hentries⟩ := h.store topic context callback
  change stored.2.WellKept at hkept
  change ∀ other, stored.2.entryFor other = if stored.1 = true ∧ other = topic then _ else _
    at hentries
  by_cases hstored : stored.1 = true
  · have hwithdrawn : withdrawn = prvRemoveSubscription topic stored.2 := if_pos hstored
    rw [hwithdrawn]
    refine ⟨hkept.remove topic, ?_⟩
    intro other
    rw [hkept.entry_for_remove]
    by_cases hother : other = topic
    · rw [if_pos hother, if_pos ⟨hstored, hother⟩]
    · rw [if_neg hother, if_neg fun hand => hother hand.2, hentries,
        if_neg fun hand => hother hand.2]
  · have hwithdrawn : withdrawn = stored.2 := if_neg hstored
    rw [hwithdrawn]
    refine ⟨hkept, ?_⟩
    intro other
    rw [hentries, if_neg fun hand => hstored hand.1, if_neg fun hand => hstored hand.1]

/-- The packet of a SUBSCRIBE in a buffer. -/
theorem subscribe_waits {buffer : MQTTBuffer} {params : MQTTSubscribeParams}
    (h : buffer.Carries (.subscribe params))
    (hlength : params.topic.bytes.length + 2 < 2 ^ 16) (entry : SubscriptionEntry) :
    Request.Waits ⟨params.packetIdentifier, params.topic.bytes, .subscribe entry⟩ buffer := by
  have hcontrol := MQTTBuffer.Holds.control_byte h (subscribe_writes_packet params)
  refine ⟨?_, ?_, MQTTBuffer.Holds.identifier h, subscribe_topic_filter h hlength⟩
  · rw [MQTTBuffer.packetType, hcontrol]
    rfl
  · rw [MQTTBuffer.packetFlags, hcontrol]
    rfl

/-- The packet of an UNSUBSCRIBE in a buffer. -/
theorem unsubscribe_waits {buffer : MQTTBuffer} {params : MQTTUnsubscribeParams}
    (h : buffer.Carries (.unsubscribe params))
    (hlength : params.topic.bytes.length + 2 < 2 ^ 16) :
    Request.Waits ⟨params.packetIdentifier, params.topic.bytes, .unsubscribe⟩ buffer := by
  have hcontrol := MQTTBuffer.Holds.control_byte h (unsubscribe_writes_packet params)
  refine ⟨?_, ?_, MQTTBuffer.Holds.identifier h, unsubscribe_topic_filter h hlength⟩
  · rw [MQTTBuffer.packetType, hcontrol]
    rfl
  · rw [MQTTBuffer.packetFlags, hcontrol]
    rfl

/-- A filter that was stored fits into the 16 bits that count it with its length. -/
theorem stored_length {topic : List UInt8} {context : CallbackContext}
    {callback : Option FunctionPointer} {manager : MQTTSubscriptionManager}
    (h : (prvStoreSubscription topic context callback manager).1 = true) :
    topic.length + 2 < 2 ^ 16 := by
  have hlength : topic.length ≤ subscriptionManagerMaxTopicLength := by
    by_contra hlong
    unfold prvStoreSubscription at h
    rw [if_neg hlong] at h
    split_ifs at h
  rw [subscriptionManagerMaxTopicLength] at hlength
  omega

namespace Exchange.Invariant

variable {e : Exchange} (hinv : e.Invariant) {w : W}

include hinv

theorem subscribe (hfresh : user.GrantsFresh e.context w) {params : MQTTSubscribeParams}
    (hidentifier : params.packetIdentifier ∉ e.pending.map Request.packetIdentifier)
    {code : MQTTReturnCode} {s : Session W}
    (hcall : mqttSubscribe user params ⟨e.context, w, []⟩ = (code, s))
    (horderly : e.Orderly (.subscribe params (code = .success))) :
    Exchange.Invariant
      { e with
        context := s.context
        pending :=
          if code = .success then
            ⟨params.packetIdentifier, params.topic.bytes,
              .subscribe (params.publishCallback, params.publishCallbackContext)⟩ :: e.pending
          else e.pending } := by
  obtain ⟨hstored, houtcome⟩ := @subscribe_outcome _ user params ⟨e.context, w, []⟩
    hinv.connected
  rw [hcall] at hstored houtcome
  cases houtcome with
  | sent buffer hcarries hgrants hlist hmanager hconnected hsame =>
      have hlength := stored_length (hstored rfl)
      obtain ⟨hkept, hentries⟩ := hinv.kept.store params.topic.bytes params.publishCallbackContext
        params.publishCallback
      rw [← hmanager] at hkept hentries
      refine ⟨hconnected, hsame.at_boundary hinv.boundary, ?_, hkept, ?_⟩
      · show Tracks s.context.txBufferList (_ :: e.pending)
        rw [hlist]
        exact hinv.tracks.link (hfresh.not_mem hgrants) hidentifier
          (subscribe_waits hcarries hlength _)
      · intro topic
        refine (hinv.entries topic).push ?_ ?_
        · intro entry hkind
          cases hkind
          rw [hentries, if_pos ⟨hstored rfl, rfl⟩]
        · intro htopic
          rw [hentries, if_neg fun hand => htopic hand.2]
  | failed hcode hlist hmanager hconnected hsame =>
      obtain ⟨hkept, hentries⟩ := entry_for_withdrawn hinv.kept params.topic.bytes
        params.publishCallbackContext params.publishCallback
      rw [← hmanager] at hkept hentries
      rw [if_neg hcode]
      refine ⟨hconnected, hsame.at_boundary hinv.boundary, ?_, hkept, ?_⟩
      · show Tracks s.context.txBufferList e.pending
        rw [hlist]
        exact hinv.tracks
      · intro topic
        by_cases hremoved : (prvStoreSubscription params.topic.bytes params.publishCallbackContext
            params.publishCallback e.context.subscriptionManager).1 = true ∧
            topic = params.topic.bytes
        · obtain ⟨hstore, rfl⟩ := hremoved
          rcases horderly with hsent | hnone | ⟨request, hnewest, hkind⟩ | hfull
          · exact absurd (of_decide_eq_true hsent) hcode
          · refine (hinv.entries _).congr ?_
            rw [hentries, if_pos ⟨hstore, rfl⟩, hnone]
          · exact Entry.unsubscribing hnewest hkind s.context
          · exact absurd (hstore.symm.trans hfull) (by simp)
        · refine (hinv.entries topic).congr ?_
          rw [hentries, if_neg hremoved]

theorem unsubscribe (hfresh : user.GrantsFresh e.context w) {params : MQTTUnsubscribeParams}
    (hidentifier : params.packetIdentifier ∉ e.pending.map Request.packetIdentifier)
    {code : MQTTReturnCode} {s : Session W}
    (hcall : mqttUnsubscribe user params ⟨e.context, w, []⟩ = (code, s))
    (horderly : e.Orderly (.unsubscribe params (code = .success))) :
    Exchange.Invariant
      { e with
        context := s.context
        pending :=
          if code = .success then
            ⟨params.packetIdentifier, params.topic.bytes, .unsubscribe⟩ :: e.pending
          else e.pending } := by
  have houtcome := @unsubscribe_outcome _ user params ⟨e.context, w, []⟩ hinv.connected
  rw [hcall] at houtcome
  cases houtcome with
  | sent buffer hcarries hgrants hlist hmanager hconnected hsame =>
      refine ⟨hconnected, hsame.at_boundary hinv.boundary, ?_, ?_, ?_⟩
      · show Tracks s.context.txBufferList (_ :: e.pending)
        rw [hlist]
        exact hinv.tracks.link (hfresh.not_mem hgrants) hidentifier
          (unsubscribe_waits hcarries horderly)
      · show s.context.subscriptionManager.WellKept
        rw [hmanager]
        exact hinv.kept
      · intro topic
        refine (hinv.entries topic).push ?_ ?_
        · intro entry hkind
          cases hkind
        · intro _
          rw [hmanager]
  | failed hcode hlist hmanager hconnected hsame =>
      rw [if_neg hcode]
      refine ⟨hconnected, hsame.at_boundary hinv.boundary, ?_, ?_, ?_⟩
      · show Tracks s.context.txBufferList e.pending
        rw [hlist]
        exact hinv.tracks
      · show s.context.subscriptionManager.WellKept
        rw [hmanager]
        exact hinv.kept
      · exact fun topic => (hinv.entries topic).congr (by rw [hmanager])

/-- What the answer to the oldest request does. -/
theorem acknowledged (hfresh : user.GrantsFresh e.context w) {oldest : Request}
    {later : List Request} {code : UInt8} (hpending : e.pending = later ++ [oldest])
    (hcode : (subACKReturnCode code).isSome)
    (hgranted : ¬ user.Refuses (oldest.answer code) w) :
    ∃ buffer ∈ e.context.txBufferList, oldest.Waits buffer ∧
      Acknowledged e.context
        (processPacket user (oldest.answer code).received ⟨e.context, w, []⟩).context buffer
        (if oldest.outcome code = none then
          prvRemoveSubscription oldest.topic e.context.subscriptionManager
          else e.context.subscriptionManager) := by
  have hmem : oldest ∈ e.pending := by
    rw [hpending]
    exact List.mem_append_right _ (List.mem_singleton_self oldest)
  obtain ⟨buffer, hbuffer, hfound, hwaits⟩ := hinv.tracks.lookup hmem rfl
  refine ⟨buffer, hbuffer, hwaits, ?_⟩
  obtain ⟨returnCode, hreturn⟩ := Option.isSome_iff_exists.mp hcode
  have hremove : prvRemoveSubscriptionForSubscribeOrUnsubscribeBuffer buffer
      e.context.subscriptionManager =
      prvRemoveSubscription oldest.topic e.context.subscriptionManager := by
    rw [prvRemoveSubscriptionForSubscribeOrUnsubscribeBuffer, hwaits.filter]
  unfold Request.answer at hgranted ⊢
  unfold Request.outcome
  -- A rejected subscribe and every unsubscribe remove the entry for the filter.
  cases hkind : oldest.kind with
  | subscribe entry =>
      rw [hkind] at hfound
      simp only [hkind, hreturn] at hgranted ⊢
      have hack := suback_acknowledged hgranted hfresh hfound hreturn
      cases returnCode with
      | subACKFailure =>
          rw [if_pos (by simp)]
          exact hremove ▸ hack
      | successQos0 =>
          rw [if_neg (by simp)]
          exact hack
      | successQos1 =>
          rw [if_neg (by simp)]
          exact hack
  | unsubscribe =>
      rw [hkind] at hfound
      simp only [hkind] at hgranted ⊢
      have hack := unsuback_acknowledged hgranted hfresh hfound
      rw [if_pos trivial]
      exact hremove ▸ hack

theorem answer (hfresh : user.GrantsFresh e.context w) {oldest : Request}
    {later : List Request} {code : UInt8} {chunks : List (List UInt8)} {s : Session W}
    (hpending : e.pending = later ++ [oldest]) (hcode : (subACKReturnCode code).isSome)
    (hchunks : chunks.flatten = (oldest.answer code).bytes)
    (hgranted : ¬ user.Refuses (oldest.answer code) w)
    (hparse : parseChunks user chunks ⟨e.context, w, []⟩ = some s)
    (horderly : e.Orderly (.answer code)) :
    Exchange.Invariant
      { context := s.context, answered := (oldest, code) :: e.answered, pending := later } := by
  have hopen : e.context.connectionState ≠ .notConnected := by
    rw [hinv.connected]
    exact MQTTConnectionState.noConfusion
  rw [parse_chunks_packet user (oldest.answer code) hchunks hinv.boundary hopen] at hparse
  cases hparse
  obtain ⟨buffer, hbuffer, hwaits, hack⟩ := hinv.acknowledged hfresh hpending hcode hgranted
  generalize (processPacket user (oldest.answer code).received ⟨e.context, w, []⟩).context = context
    at hack ⊢
  have htracks := hinv.tracks
  rw [hpending] at htracks
  refine ⟨hack.state.trans hinv.connected, hack.boundary, ?_, ?_, ?_⟩
  · show Tracks context.txBufferList later
    rw [hack.txBufferList]
    exact htracks.unlink hbuffer hwaits
  · show context.subscriptionManager.WellKept
    rw [hack.manager]
    split_ifs
    · exact hinv.kept.remove _
    · exact hinv.kept
  · exact fun topic => (hinv.entries topic).answer hinv.kept hpending
      (horderly oldest later hpending) hack.manager

end Exchange.Invariant

/-- An orderly step keeps the invariant. -/
theorem Exchanges.invariant {e e' : Exchange} {step : ExchangeStep} (h : Exchanges user e step e')
    (horderly : e.Orderly step) (hinv : e.Invariant) : e'.Invariant := by
  cases h with
  | subscribe params w hfresh hidentifier hcall =>
      exact hinv.subscribe hfresh hidentifier hcall horderly
  | unsubscribe params w hfresh hidentifier hcall =>
      exact hinv.unsubscribe hfresh hidentifier hcall horderly
  | answer oldest later code chunks w hfresh hpending hcode hchunks hgranted hparse =>
      exact hinv.answer hfresh hpending hcode hchunks hgranted hparse horderly

/-- From any state of an open connection between two packets, in which no request waits, every
orderly exchange keeps the subscription manager settled: once all requests on a filter are answered,
there is an entry for it exactly if the last one was an accepted subscribe, with the callback of
that. -/
theorem subscriptions_settled (user : MQTTInitParams W) {memory c : MQTTContext}
    {history : List (Op × List MQTTOutput)} (hrun : Run user memory history c)
    (hconnected : c.connectionState = .connected) (hboundary : AtBoundary c)
    (hhandles : (c.txBufferList.map MQTTBuffer.handle).Nodup)
    (hidle : ∀ buffer ∈ c.txBufferList, ¬ buffer.HoldsRequest) {e : Exchange}
    (hexchange : Relation.ReflTransGen
      (fun e e' => ∃ step, Exchanges user e step e' ∧ e.Orderly step) ⟨c, [], []⟩ e) :
    e.Settled := by
  have hstart : Exchange.Invariant ⟨c, [], []⟩ := by
    refine ⟨hconnected, hboundary, ⟨hhandles, List.nodup_nil, ?_, ?_, ?_⟩,
      hrun.manager_sound.toWellKept, ?_⟩
    · exact fun request hmem => absurd hmem List.not_mem_nil
    · exact fun buffer hmem hrequest => absurd hrequest (hidle buffer hmem)
    · exact fun buffer hmem _ _ hrequest => absurd hrequest (hidle buffer hmem)
    · intro topic
      refine ⟨fun request entry hnewest => ?_, fun _ outcome hanswer => ?_⟩
      · exact absurd hnewest (by simp [Exchange.newest])
      · exact absurd hanswer (by simp [Exchange.lastAnswer])
  have hinvariant : e.Invariant := by
    induction hexchange with
    | refl => exact hstart
    | tail _ hlast ih =>
        obtain ⟨step, hstep, horderly⟩ := hlast
        exact hstep.invariant horderly ih
  exact hinvariant.settled

/-! ## Two exchanges -/

instance (context : MQTTContext) : Decidable (AtBoundary context) :=
  inferInstanceAs (Decidable (_ ∧ _ ∧ _))

/-- A connection that has just been accepted. -/
def openContext : MQTTContext := (replayed benchUser acceptedClient (mqttInit blankContext)).2

/-- The request of `benchSubscribe`. -/
def benchSubscribeRequest : Request := ⟨3, [0x61], .subscribe (some 9, 7)⟩

/-- The request of `benchUnsubscribe`. -/
def benchUnsubscribeRequest : Request := ⟨2, [0x61], .unsubscribe⟩

theorem bench_grants_fresh {context : MQTTContext} {w : Bench} (h : w.nextHandle ∉ context.places) :
    benchUser.GrantsFresh context w := by
  intro requested buffer w' hgranted
  cases hgranted
  exact h

/-- A subscribe of the bench that is sent. -/
theorem bench_subscribe {e : Exchange} (w : Bench) (hfresh : w.nextHandle ∉ e.context.places)
    (hidentifier : 3 ∉ e.pending.map Request.packetIdentifier)
    (hsent : (mqttSubscribe benchUser benchSubscribe ⟨e.context, w, []⟩).1 = .success) :
    Exchanges benchUser e (.subscribe benchSubscribe true)
      { e with
        context := (mqttSubscribe benchUser benchSubscribe ⟨e.context, w, []⟩).2.context
        pending := benchSubscribeRequest :: e.pending } :=
  .subscribe benchSubscribe w (bench_grants_fresh hfresh) hidentifier (Prod.ext hsent rfl)

/-- An unsubscribe of the bench that is sent. -/
theorem bench_unsubscribe {e : Exchange} (w : Bench) (hfresh : w.nextHandle ∉ e.context.places)
    (hidentifier : 2 ∉ e.pending.map Request.packetIdentifier)
    (hsent : (mqttUnsubscribe benchUser benchUnsubscribe ⟨e.context, w, []⟩).1 = .success) :
    Exchanges benchUser e (.unsubscribe benchUnsubscribe true)
      { e with
        context := (mqttUnsubscribe benchUser benchUnsubscribe ⟨e.context, w, []⟩).2.context
        pending := benchUnsubscribeRequest :: e.pending } :=
  .unsubscribe benchUnsubscribe w (bench_grants_fresh hfresh) hidentifier (Prod.ext hsent rfl)

/-- A step of the broker of the bench. -/
theorem bench_answer {e : Exchange} {oldest : Request} {later : List Request} (code : UInt8)
    (w : Bench) (hfresh : w.nextHandle ∉ e.context.places)
    (hpending : e.pending = later ++ [oldest])
    (hcode : (subACKReturnCode code).isSome) (hboundary : AtBoundary e.context)
    (hconnected : e.context.connectionState = .connected) :
    Exchanges benchUser e (.answer code)
      { context := (processPacket benchUser (oldest.answer code).received
          ⟨e.context, w, []⟩).context
        answered := (oldest, code) :: e.answered
        pending := later } := by
  refine .answer oldest later code [(oldest.answer code).bytes] w (bench_grants_fresh hfresh)
    hpending hcode List.flatten_singleton ?_ ?_
  · intro hrefuses
    cases hrefuses
  · refine parse_chunks_packet benchUser _ List.flatten_singleton hboundary ?_
    rw [hconnected]
    exact MQTTConnectionState.noConfusion

/-- Unsubscribe from a filter. -/
def unsubscribing : MQTTContext :=
  (mqttUnsubscribe benchUser benchUnsubscribe ⟨openContext, ⟨3, 12, 100, false⟩, []⟩).2.context

/-- Subscribe to it again before the broker has answered. -/
def resubscribing : MQTTContext :=
  (mqttSubscribe benchUser benchSubscribe ⟨unsubscribing, ⟨4, 13, 100, false⟩, []⟩).2.context

/-- The broker acknowledges the unsubscribe. -/
def unsubscribed : MQTTContext :=
  (processPacket benchUser (benchUnsubscribeRequest.answer 0).received
    ⟨resubscribing, ⟨5, 14, 100, false⟩, []⟩).context

/-- The broker accepts the subscribe. -/
def resubscribed : MQTTContext :=
  (processPacket benchUser (benchSubscribeRequest.answer 1).received
    ⟨unsubscribed, ⟨6, 15, 100, false⟩, []⟩).context

/-- The acknowledgment of an unsubscribe removes the entry of a later subscribe that the broker
accepts. -/
theorem unsubscribe_removes_later_subscription :
    ∃ history c e, Run benchUser blankContext history c ∧ c.connectionState = .connected ∧
      AtBoundary c ∧ c.txBufferList = [] ∧
      Relation.ReflTransGen (fun e e' => ∃ step, Exchanges benchUser e step e') ⟨c, [], []⟩ e ∧
      ¬ e.Settled := by
  have hrun : Run benchUser blankContext _ openContext :=
    run_of_replayed (show (replay benchUser acceptedClient _).isSome from rfl)
  have hunsubscribe : Exchanges benchUser ⟨openContext, [], []⟩ _
      ⟨unsubscribing, [], [benchUnsubscribeRequest]⟩ :=
    bench_unsubscribe ⟨3, 12, 100, false⟩ (by decide +kernel) (by decide) (by decide +kernel)
  have hsubscribe : Exchanges benchUser ⟨unsubscribing, [], [benchUnsubscribeRequest]⟩ _
      ⟨resubscribing, [], [benchSubscribeRequest, benchUnsubscribeRequest]⟩ :=
    bench_subscribe ⟨4, 13, 100, false⟩ (by decide +kernel) (by decide) (by decide +kernel)
  have hfirst : Exchanges benchUser
      ⟨resubscribing, [], [benchSubscribeRequest, benchUnsubscribeRequest]⟩ _
      ⟨unsubscribed, [(benchUnsubscribeRequest, 0)], [benchSubscribeRequest]⟩ :=
    bench_answer 0 ⟨5, 14, 100, false⟩ (by decide +kernel) rfl rfl (by decide +kernel)
      (by decide +kernel)
  have hsecond : Exchanges benchUser
      ⟨unsubscribed, [(benchUnsubscribeRequest, 0)], [benchSubscribeRequest]⟩ _
      ⟨resubscribed, [(benchSubscribeRequest, 1), (benchUnsubscribeRequest, 0)], []⟩ :=
    bench_answer 1 ⟨6, 15, 100, false⟩ (by decide +kernel) rfl rfl (by decide +kernel)
      (by decide +kernel)
  refine ⟨_, _, _, hrun, by decide +kernel, ⟨rfl, rfl, rfl⟩, rfl,
    (((Relation.ReflTransGen.single ⟨_, hunsubscribe⟩).tail ⟨_, hsubscribe⟩).tail
      ⟨_, hfirst⟩).tail ⟨_, hsecond⟩, ?_⟩
  intro hsettled
  have hentry := hsettled [0x61] rfl (some (some 9, 7)) (by decide +kernel)
  have hnone : resubscribed.subscriptionManager.entryFor [0x61] = none := by decide +kernel
  exact absurd (hnone.symm.trans hentry) (by simp)

/-- Subscribe to a filter. -/
def subscribing : MQTTContext :=
  (mqttSubscribe benchUser benchSubscribe ⟨openContext, ⟨3, 12, 100, false⟩, []⟩).2.context

/-- Unsubscribe from it before the broker has answered. -/
def cancelling : MQTTContext :=
  (mqttUnsubscribe benchUser benchUnsubscribe ⟨subscribing, ⟨4, 13, 100, false⟩, []⟩).2.context

/-- The broker rejects the subscribe. -/
def rejected : MQTTContext :=
  (processPacket benchUser (benchSubscribeRequest.answer 0x80).received
    ⟨cancelling, ⟨5, 14, 100, false⟩, []⟩).context

/-- The broker acknowledges the unsubscribe. -/
def cancelled : MQTTContext :=
  (processPacket benchUser (benchUnsubscribeRequest.answer 0).received
    ⟨rejected, ⟨6, 15, 100, false⟩, []⟩).context

/-- Subscribe once more. -/
def renewing : MQTTContext :=
  (mqttSubscribe benchUser benchSubscribe ⟨cancelled, ⟨7, 16, 100, false⟩, []⟩).2.context

/-- The broker accepts the subscribe this time. -/
def renewed : MQTTContext :=
  (processPacket benchUser (benchSubscribeRequest.answer 1).received
    ⟨renewing, ⟨8, 17, 100, false⟩, []⟩).context

theorem orderly_answer {e : Exchange} {oldest : Request} {later : List Request} {code : UInt8}
    (hpending : e.pending = later ++ [oldest])
    (h : oldest.outcome code = none → ∀ request ∈ later.find? fun request =>
      request.topic == oldest.topic, request.kind = .unsubscribe) : e.Orderly (.answer code) := by
  intro oldest' later' hpending'
  obtain ⟨rfl, heq⟩ := List.append_inj' (hpending.symm.trans hpending') rfl
  cases heq
  exact h

/-- A rejected subscribe and an unsubscribe on the same filter overlap, and the subscribe after them
is accepted. -/
theorem subscriptions_settled_accepted :
    renewed.subscriptionManager.entryFor [0x61] = some (some 9, 7) := by
  have hrun : Run benchUser blankContext _ openContext :=
    run_of_replayed (show (replay benchUser acceptedClient _).isSome from rfl)
  have hsubscribe : Exchanges benchUser ⟨openContext, [], []⟩ _
      ⟨subscribing, [], [benchSubscribeRequest]⟩ :=
    bench_subscribe ⟨3, 12, 100, false⟩ (by decide +kernel) (by decide) (by decide +kernel)
  have hcancel : Exchanges benchUser ⟨subscribing, [], [benchSubscribeRequest]⟩ _
      ⟨cancelling, [], [benchUnsubscribeRequest, benchSubscribeRequest]⟩ :=
    bench_unsubscribe ⟨4, 13, 100, false⟩ (by decide +kernel) (by decide) (by decide +kernel)
  have hreject : Exchanges benchUser
      ⟨cancelling, [], [benchUnsubscribeRequest, benchSubscribeRequest]⟩ _
      ⟨rejected, [(benchSubscribeRequest, 0x80)], [benchUnsubscribeRequest]⟩ :=
    bench_answer 0x80 ⟨5, 14, 100, false⟩ (by decide +kernel) rfl rfl (by decide +kernel)
      (by decide +kernel)
  have hcancelled : Exchanges benchUser
      ⟨rejected, [(benchSubscribeRequest, 0x80)], [benchUnsubscribeRequest]⟩ _
      ⟨cancelled, [(benchUnsubscribeRequest, 0), (benchSubscribeRequest, 0x80)], []⟩ :=
    bench_answer 0 ⟨6, 15, 100, false⟩ (by decide +kernel) rfl rfl (by decide +kernel)
      (by decide +kernel)
  have hrenew : Exchanges benchUser
      ⟨cancelled, [(benchUnsubscribeRequest, 0), (benchSubscribeRequest, 0x80)], []⟩ _
      ⟨renewing, [(benchUnsubscribeRequest, 0), (benchSubscribeRequest, 0x80)],
        [benchSubscribeRequest]⟩ :=
    bench_subscribe ⟨7, 16, 100, false⟩ (by decide +kernel) (by decide) (by decide +kernel)
  have hrenewed : Exchanges benchUser
      ⟨renewing, [(benchUnsubscribeRequest, 0), (benchSubscribeRequest, 0x80)],
        [benchSubscribeRequest]⟩ _
      ⟨renewed, [(benchSubscribeRequest, 1), (benchUnsubscribeRequest, 0),
        (benchSubscribeRequest, 0x80)], []⟩ :=
    bench_answer 1 ⟨8, 17, 100, false⟩ (by decide +kernel) rfl rfl (by decide +kernel)
      (by decide +kernel)
  -- The rejection removes the filter while the unsubscribe is the newest request on it.
  have horderly : Exchange.Orderly
      ⟨cancelling, [], [benchUnsubscribeRequest, benchSubscribeRequest]⟩ (.answer 0x80) :=
    orderly_answer (show _ = [benchUnsubscribeRequest] ++ [benchSubscribeRequest] from rfl)
      fun _ request hmem => by
        cases hmem
        rfl
  have hlast : ∀ {e : Exchange} {oldest : Request} {code : UInt8}, e.pending = [] ++ [oldest] →
      e.Orderly (.answer code) := fun hpending =>
    orderly_answer hpending fun _ request hmem => by cases hmem
  refine subscriptions_settled benchUser hrun (by decide +kernel) ⟨rfl, rfl, rfl⟩ List.nodup_nil
    (fun buffer hmem => absurd hmem List.not_mem_nil)
    ((((((Relation.ReflTransGen.single ⟨_, hsubscribe, Or.inl rfl⟩).tail
      ⟨_, hcancel, show 1 + 2 < 2 ^ 16 by decide⟩).tail ⟨_, hreject, horderly⟩).tail
      ⟨_, hcancelled, hlast rfl⟩).tail ⟨_, hrenew, Or.inl rfl⟩).tail ⟨_, hrenewed, hlast rfl⟩)
    [0x61] rfl (some (some 9, 7)) (by decide +kernel)

end TivaAws.Mqtt
