import TivaAws.Shadow.Callbacks

/-!
# Creating clients

`SHADOW_ClientCreate` reserves a client and then a connection of the MQTT agent for it. Without a
connection it means to delete the client again, but passes what the caller's handle happens to hold,
so the client stays reserved, and another one may be deleted (`client_create_sound_iff`).
-/

namespace TivaAws.Shadow

/-! ## Clients and connections -/

/-- `ShadowMQTTClientType_t`. -/
inductive ShadowMQTTClientType where
  | shared
  | dedicated
  deriving DecidableEq

/-- An element of `xShadowClients`. The handle of the MQTT client is an `UBaseType_t`; of the
mutexes and the semaphore it is kept whether they have been created. -/
structure ClientSlot where
  mqttClient : Nat
  inUse : Bool
  callbackSemaphore : Bool
  operationMutex : Bool
  operationDataMutex : Bool
  client : ShadowClient

/-- `xShadowClients`, and `xConnectionInUse` of each element of `xMQTTConnections`. -/
structure ClientTables where
  clients : List ClientSlot
  connections : List Bool

/-- A client without registered callbacks or an operation. -/
def ShadowClient.zeroed (client : ShadowClient) : ShadowClient where
  updateSubscribed := false
  getSubscribed := false
  deleteSubscribed := false
  callbackSemaphore := false
  operationData := none
  operationResult := 0
  callbackCatalog := List.replicate client.callbackCatalog.length .unused
  topicBuffer := fun _ => 0

/-- `memset( pxShadowClient, 0, sizeof( ShadowClient_t ) )`. -/
def ClientSlot.zeroed (slot : ClientSlot) : ClientSlot where
  mqttClient := 0
  inUse := false
  callbackSemaphore := false
  operationMutex := false
  operationDataMutex := false
  client := slot.client.zeroed

/-- The binary semaphore and the mutexes of a new client, and the first `xSemaphoreGive`. -/
def ClientSlot.synchronised (slot : ClientSlot) : ClientSlot :=
  { slot with
    callbackSemaphore := true
    operationMutex := true
    operationDataMutex := true
    client.callbackSemaphore := true }

/-- `prvGetFreeShadowClient`. -/
def prvGetFreeShadowClient (clients : List ClientSlot) : Int × List ClientSlot :=
  match clients.findIdx? fun slot => !slot.inUse with
  | some id => (id, clients.modify id fun slot => { slot with inUse := true })
  | none => (-1, clients)

/-- `prvGetFreeConnection`. -/
def prvGetFreeConnection (connections : List Bool) : Int × List Bool :=
  match connections.findIdx? fun inUse => !inUse with
  | some broker => (broker, connections.set broker true)
  | none => (-1, connections)

/-- `MQTT_AGENT_Create`: the code, the handle, which is encoded by `mqttENCODE_BROKER_NUMBER`, and
the connections. -/
def mqttAgentCreate (handle : Nat) (connections : List Bool) :
    MQTTAgentReturnCode × Nat × List Bool :=
  let free := prvGetFreeConnection connections
  if free.1 ≥ 0 then (.success, free.1.toNat + 1, free.2) else (.failure, handle, free.2)

/-- `mqttDECODE_BROKER_NUMBER`. -/
def decodeBrokerNumber (handle : Nat) : Nat := (handle + 2 ^ 32 - 1) % 2 ^ 32

/-- `MQTT_AGENT_Delete`, which asserts in `prvReturnConnection` that there is such a connection.
What an assertion that fails leaves behind is an error. -/
def mqttAgentDelete (handle : Nat) (tables : ClientTables) :
    Except ClientTables (MQTTAgentReturnCode × ClientTables) :=
  let broker := decodeBrokerNumber handle
  if broker < tables.connections.length then
    .ok (.success, { tables with connections := tables.connections.set broker false })
  else .error tables

/-- The client that a handle stands for, if it is one in use. -/
def clientInUse (handle : Int) (clients : List ClientSlot) : Option ClientSlot :=
  if handle ≥ 0 then clients[handle.toNat]?.filter (·.inUse) else none

/-- `SHADOW_ClientDelete`, which asserts that the handle stands for a client in use. -/
def shadowClientDelete (handle : Int) (tables : ClientTables) :
    Except ClientTables (ShadowReturnCode × ClientTables) :=
  match clientInUse handle tables.clients with
  | none => .error tables
  | some slot => do
      let (code, tables) ← mqttAgentDelete slot.mqttClient tables
      let returnCode := prvConvertMQTTReturnCode code
      .ok (returnCode,
        if returnCode = shadowSuccess then
          { tables with clients := tables.clients.modify handle.toNat ClientSlot.zeroed }
        else tables)

/-- `SHADOW_ClientCreate`: the code, the handle of the caller, and the clients and connections. The
type of the MQTT client and that there is a free client are asserted. -/
def shadowClientCreate (clientType : ShadowMQTTClientType) (handle : Int) (tables : ClientTables) :
    Except ClientTables (ShadowReturnCode × Int × ClientTables) :=
  if clientType ≠ .dedicated then .error tables
  else
    let (clientID, clients) := prvGetFreeShadowClient tables.clients
    if clientID < 0 then .error { tables with clients }
    else
      let before := (clients[clientID.toNat]?.map ClientSlot.mqttClient).getD 0
      let (code, mqttClient, connections) := mqttAgentCreate before tables.connections
      let clients := clients.modify clientID.toNat fun slot => { slot with mqttClient }
      let returnCode := prvConvertMQTTReturnCode code
      if returnCode = shadowSuccess then
        .ok (returnCode, clientID,
          { clients := clients.modify clientID.toNat ClientSlot.synchronised
            connections })
      else do
        let (returnCode, tables) ← shadowClientDelete handle { clients, connections }
        .ok (returnCode, handle, tables)

/-! ## What creation should do -/

/-- The handle stands for a client that has been reserved, with a connection that has been reserved
and with its semaphore and mutexes. The other clients are as they were. -/
structure Reserved (tables tables' : ClientTables) (handle : Int) (id : Nat) (slot : ClientSlot)
    (broker : Nat) : Prop where
  handle_eq : handle = id
  free : ∃ old, tables.clients[id]? = some old ∧ old.inUse = false
  reserved : tables'.clients[id]? = some slot
  inUse : slot.inUse = true
  owns : slot.mqttClient = broker + 1
  freeConnection : tables.connections[broker]? = some false
  connection : tables'.connections = tables.connections.set broker true
  synchronised : slot.callbackSemaphore = true ∧ slot.operationMutex = true ∧
    slot.operationDataMutex = true
  others : ∀ j, j ≠ id → tables'.clients[j]? = tables.clients[j]?

/-- Creation succeeds with what it reserves, and otherwise leaves everything as it was, even where
an assertion fails. -/
def CreateSound (clientType : ShadowMQTTClientType) (handle : Int) (tables : ClientTables) : Prop :=
  match shadowClientCreate clientType handle tables with
  | .ok (returnCode, handle', tables') =>
      if returnCode = shadowSuccess then
        ∃ id slot broker, Reserved tables tables' handle' id slot broker
      else tables' = tables
  | .error tables' => tables' = tables

/-! ## Reserving -/

section Reserve

variable {clients : List ClientSlot} {connections : List Bool} {tables tables' : ClientTables}
  {handle : Int}

/-- A client is reserved, if there is one that is not in use. -/
theorem get_free_client (clients : List ClientSlot) :
    (∃ (id : Nat) (slot : ClientSlot), clients[id]? = some slot ∧ slot.inUse = false ∧
      prvGetFreeShadowClient clients =
        ((id : Int), clients.modify id fun slot => { slot with inUse := true })) ∨
    ((∀ slot ∈ clients, slot.inUse = true) ∧ prvGetFreeShadowClient clients = (-1, clients)) := by
  unfold prvGetFreeShadowClient
  cases hfind : clients.findIdx? fun slot => !slot.inUse with
  | none =>
      refine .inr ⟨fun slot hmem => ?_, rfl⟩
      have hused := List.findIdx?_eq_none_iff.mp hfind slot hmem
      simpa using hused
  | some id =>
      obtain ⟨hid, hfree, -⟩ := List.findIdx?_eq_some_iff_getElem.mp hfind
      exact .inl ⟨id, clients[id], List.getElem?_eq_getElem hid, by simpa using hfree, rfl⟩

/-- A connection is reserved, if there is one that is not in use. -/
theorem get_free_connection (connections : List Bool) :
    (∃ broker : Nat, connections[broker]? = some false ∧
      prvGetFreeConnection connections = ((broker : Int), connections.set broker true)) ∨
    (false ∉ connections ∧ prvGetFreeConnection connections = (-1, connections)) := by
  unfold prvGetFreeConnection
  cases hfind : connections.findIdx? fun inUse => !inUse with
  | none =>
      refine .inr ⟨fun hmem => ?_, rfl⟩
      have hused := List.findIdx?_eq_none_iff.mp hfind false hmem
      cases hused
  | some broker =>
      obtain ⟨hbroker, hfree, -⟩ := List.findIdx?_eq_some_iff_getElem.mp hfind
      refine .inl ⟨broker, ?_, rfl⟩
      rw [List.getElem?_eq_getElem hbroker]
      simpa using hfree

/-- Behind a `SHADOW_ClientDelete` that returns, the handle stands for no client in use. Where an
assertion fails, nothing is changed. -/
theorem client_delete_spec (handle : Int) (tables : ClientTables) :
    (∃ tables', shadowClientDelete handle tables = .ok (shadowSuccess, tables') ∧
      clientInUse handle tables'.clients = none) ∨
    shadowClientDelete handle tables = .error tables := by
  unfold shadowClientDelete
  cases hclient : clientInUse handle tables.clients with
  | none => exact .inr rfl
  | some slot =>
      unfold mqttAgentDelete
      simp only
      split_ifs with hbroker
      · refine .inl ⟨_, rfl, ?_⟩
        show clientInUse handle (tables.clients.modify handle.toNat ClientSlot.zeroed) = none
        unfold clientInUse
        split_ifs
        · rw [List.getElem?_modify_eq ClientSlot.zeroed]
          cases tables.clients[handle.toNat]? <;> rfl
        · rfl
      · exact .inr rfl

/-- A client and a connection are reserved. -/
theorem client_create_reserved {id broker : Nat} {slot : ClientSlot}
    (hslot : tables.clients[id]? = some slot) (hfree : slot.inUse = false)
    (hclient : prvGetFreeShadowClient tables.clients =
      ((id : Int), tables.clients.modify id fun slot => { slot with inUse := true }))
    (hbroker : tables.connections[broker]? = some false)
    (hconnection : prvGetFreeConnection tables.connections =
      ((broker : Int), tables.connections.set broker true)) :
    ∃ tables' slot, shadowClientCreate .dedicated handle tables =
        .ok (shadowSuccess, (id : Int), tables') ∧
      Reserved tables tables' id id slot broker := by
  unfold shadowClientCreate mqttAgentCreate
  rw [if_neg (by decide), hclient, hconnection]
  simp only
  rw [if_neg (by omega), if_pos (Int.natCast_nonneg broker)]
  refine ⟨_, ({ slot with inUse := true, mqttClient := broker + 1 } : ClientSlot).synchronised, rfl,
    ?_⟩
  exact {
    handle_eq := rfl
    free := ⟨slot, hslot, hfree⟩
    reserved := by
      rw [Int.toNat_natCast, List.getElem?_modify_eq ClientSlot.synchronised,
        List.getElem?_modify_eq, List.getElem?_modify_eq, hslot]
      rfl
    inUse := rfl
    owns := rfl
    freeConnection := hbroker
    connection := rfl
    synchronised := ⟨rfl, rfl, rfl⟩
    others := fun j hj => by
      rw [Int.toNat_natCast, List.getElem?_modify_ne _ _ (Ne.symm hj),
        List.getElem?_modify_ne _ _ (Ne.symm hj), List.getElem?_modify_ne _ _ (Ne.symm hj)] }

/-- Without a free connection, a client that is reserved stays so or the call says that it has
deleted one. -/
theorem client_create_unsound {id : Nat} {slot : ClientSlot}
    (hslot : tables.clients[id]? = some slot) (hfree : slot.inUse = false)
    (hclient : prvGetFreeShadowClient tables.clients =
      ((id : Int), tables.clients.modify id fun slot => { slot with inUse := true }))
    (hconnection : prvGetFreeConnection tables.connections = (-1, tables.connections)) :
    ¬ CreateSound .dedicated handle tables := by
  unfold CreateSound shadowClientCreate mqttAgentCreate
  rw [if_neg (by decide), hclient, hconnection]
  simp only
  rw [if_neg (show ¬ (id : Int) < 0 by omega), if_neg (show ¬ (-1 : Int) ≥ 0 by decide),
    if_neg (show ¬ prvConvertMQTTReturnCode .failure = shadowSuccess by decide)]
  generalize hreserved : (_ : List ClientSlot).modify _ _ = clients
  have hused : (clients[id]?).any (·.inUse) = true := by
    rw [← hreserved, Int.toNat_natCast, List.getElem?_modify_eq, List.getElem?_modify_eq, hslot]
    rfl
  obtain ⟨tables', hdelete, hnone⟩ | hdelete :=
    client_delete_spec handle { clients, connections := tables.connections }
  · rw [hdelete]
    show ¬ (if shadowSuccess = shadowSuccess then
      ∃ id slot broker, Reserved tables tables' handle id slot broker else tables' = tables)
    rw [if_pos rfl]
    rintro ⟨id', slot', broker, hreserved'⟩
    unfold clientInUse at hnone
    rw [hreserved'.handle_eq, if_pos (Int.natCast_nonneg id'), Int.toNat_natCast,
      hreserved'.reserved, Option.filter_some, if_pos hreserved'.inUse] at hnone
    cases hnone
  · rw [hdelete]
    intro hsame
    replace hsame : (⟨clients, tables.connections⟩ : ClientTables) = tables := hsame
    rw [show clients = tables.clients from congrArg ClientTables.clients hsame, hslot,
      Option.any_some, hfree] at hused
    cases hused

end Reserve

/-- `SHADOW_ClientCreate` reserves all that a client needs or nothing just when there is a
connection for it or no client that it could reserve. -/
theorem client_create_sound_iff (clientType : ShadowMQTTClientType) (handle : Int)
    (tables : ClientTables) :
    CreateSound clientType handle tables ↔
      (clientType = .dedicated → (∃ slot ∈ tables.clients, slot.inUse = false) →
        false ∈ tables.connections) := by
  cases clientType with
  | shared => exact iff_of_true rfl fun h => nomatch h
  | dedicated =>
      obtain ⟨id, slot, hslot, hfree, hclient⟩ | ⟨hfull, hclient⟩ := get_free_client tables.clients
      · obtain ⟨broker, hbroker, hconnection⟩ | ⟨hnone, hconnection⟩ :=
          get_free_connection tables.connections
        · refine iff_of_true ?_ fun _ _ => List.mem_of_getElem? hbroker
          obtain ⟨tables', slot', hcreate, hreserved⟩ :=
            @client_create_reserved tables handle id broker slot hslot hfree hclient hbroker
              hconnection
          unfold CreateSound
          rw [hcreate]
          exact ⟨id, slot', broker, hreserved⟩
        · refine iff_of_false (client_create_unsound hslot hfree hclient hconnection) fun h => ?_
          exact hnone (h rfl ⟨slot, List.mem_of_getElem? hslot, hfree⟩)
      · refine iff_of_true ?_ fun _ ⟨slot, hmem, hfree⟩ => ?_
        · unfold CreateSound shadowClientCreate
          rw [if_neg (by decide), hclient]
          rfl
        · rw [hfull slot hmem] at hfree
          cases hfree

/-- A client that has never been in use. -/
def unusedSlot : ClientSlot where
  mqttClient := 0
  inUse := false
  callbackSemaphore := false
  operationMutex := false
  operationDataMutex := false
  client := benchClient.client.zeroed

/-- The only client, while three other users have the connections and the handle is still zero. -/
theorem client_stays_reserved :
    ¬ CreateSound .dedicated 0 { clients := [unusedSlot], connections := [true, true, true] } := by
  intro hsound
  have hclients : [{ unusedSlot with inUse := true }] = [unusedSlot] :=
    congrArg ClientTables.clients hsound
  have hinUse := congrArg (List.map ClientSlot.inUse) hclients
  cases hinUse

end TivaAws.Shadow
