import TivaAws.Foundation.Field
import TivaAws.Mqtt.Packets

/-!
# The packets a client sends

The MQTT 3.1.1 format of the CONNECT, SUBSCRIBE, UNSUBSCRIBE and PUBLISH packets with everything
that they can carry, also what this library never sends. No bytes are two packets
(`is_packet_unique`), so bytes that are a packet decode to it and to nothing else.
-/

namespace TivaAws.Mqtt

/-! ## Packets -/

/-- The message that the broker publishes for a client it has lost. -/
structure Will where
  topic : MQTTString
  message : MQTTString
  qos : MQTTQoS
  retain : Bool

/-- How a publish is delivered. Only a publish that is acknowledged has an identifier, and only
such a publish can be a duplicate. -/
inductive Delivery where
  | atMostOnce
  | atLeastOnce (duplicate : Bool) (identifier : UInt16)
  | exactlyOnce (duplicate : Bool) (identifier : UInt16)

/-- A packet that a client sends to make a request of the broker. There is no password without a
user name, and no request without a filter. -/
inductive ControlPacket where
  | connect (cleanSession : Bool) (keepAlive : UInt16) (clientId : MQTTString) (will : Option Will)
      (userName : Option (MQTTString × Option MQTTString))
  | subscribe (identifier : UInt16) (requests : List (MQTTString × MQTTQoS)) (asks : requests ≠ [])
  | unsubscribe (identifier : UInt16) (filters : List MQTTString) (asks : filters ≠ [])
  | publish (delivery : Delivery) (retain : Bool) (topic : MQTTString) (payload : List UInt8)

/-! ## Their bytes -/

/-- A string with its length in front. -/
def stringField : Field MQTTString :=
  Field.counted.along (fun string => ⟨string.bytes, string.length_lt⟩) fun s t h => by
    cases s
    cases t
    cases congrArg Subtype.val h
    rfl

theorem string_field_encode (string : MQTTString) :
    stringField.encode string =
      [UInt8.ofNat (string.bytes.length >>> 8), UInt8.ofNat string.bytes.length] ++
        string.bytes := rfl

/-- The bits of a `MQTTQoS`. -/
def qosField : Field MQTTQoS := Field.byte.along MQTTQoS.toUInt8 fun p q h => by
  cases p <;> cases q <;> first | rfl | exact absurd h (by decide)

/-- The flags of a will in CONNECT. -/
def Will.flags (will : Will) : Nat := 4 + 8 * will.qos.toUInt8.toNat + 32 * will.retain.toNat

/-- The flags of the user name and the password in CONNECT. -/
def credentialFlags : Option (MQTTString × Option MQTTString) → Nat
  | none => 0
  | some (_, none) => 128
  | some (_, some _) => 128 + 64

/-- The flags of CONNECT. -/
def connectFlags (cleanSession : Bool) (will : Option Will)
    (userName : Option (MQTTString × Option MQTTString)) : UInt8 :=
  UInt8.ofNat (2 * cleanSession.toNat + will.elim 0 Will.flags + credentialFlags userName)

/-- The flags of PUBLISH for a delivery. -/
def Delivery.flags : Delivery → Nat
  | .atMostOnce => 0
  | .atLeastOnce duplicate _ => 8 * duplicate.toNat + 2
  | .exactlyOnce duplicate _ => 8 * duplicate.toNat + 4

/-- The packet identifier of a publish. -/
def Delivery.identifier : Delivery → Option UInt16
  | .atMostOnce => none
  | .atLeastOnce _ identifier => some identifier
  | .exactlyOnce _ identifier => some identifier

namespace ControlPacket

/-- The first byte. -/
def controlByte : ControlPacket → UInt8
  | connect .. => 0x10
  | subscribe .. => 0x82
  | unsubscribe .. => 0xA2
  | publish delivery retain _ _ => UInt8.ofNat (0x30 + delivery.flags + retain.toNat)

/-- The topic and the message of a will. -/
def willField : Field (MQTTString × MQTTString) := stringField.pair stringField

/-- The variable header and the payload. -/
def body : ControlPacket → List UInt8
  | connect cleanSession keepAlive clientId will userName =>
      [0, 4, 'M'.toUInt8, 'Q'.toUInt8, 'T'.toUInt8, 'T'.toUInt8, 4,
        connectFlags cleanSession will userName] ++
      (Field.word.encode keepAlive ++
      (stringField.encode clientId ++
      (willField.optional (will.map fun will => (will.topic, will.message)) ++
      (stringField.optional (userName.map Prod.fst) ++
        stringField.optional (userName.bind Prod.snd)))))
  | subscribe identifier requests _ =>
      Field.word.encode identifier ++ requests.flatMap (stringField.pair qosField).encode
  | unsubscribe identifier filters _ =>
      Field.word.encode identifier ++ filters.flatMap stringField.encode
  | publish delivery _ topic payload =>
      stringField.encode topic ++ (Field.word.optional delivery.identifier ++ payload)

/-- The bytes are the packet: its first byte, the length of what follows as a number of at most
four bytes, and what follows. -/
def IsPacket (packet : ControlPacket) (bytes : List UInt8) : Prop :=
  ∃ field, bytes = packet.controlByte :: (field ++ packet.body) ∧ Varint.Complete field ∧
    field.length ≤ remainingLengthMaxBytes ∧ Varint.value field = packet.body.length

/-- The bytes decode to the packet. -/
def Decodes (bytes : List UInt8) (packet : ControlPacket) : Prop :=
  ∀ other : ControlPacket, other.IsPacket bytes ↔ other = packet

end ControlPacket

/-! ## Nothing is two packets -/

theorem qos_toNat_le (qos : MQTTQoS) : qos.toUInt8.toNat ≤ 2 := by
  cases qos <;> decide

theorem qos_toNat_inj {qos qos' : MQTTQoS} (h : qos.toUInt8.toNat = qos'.toUInt8.toNat) :
    qos = qos' := by
  cases qos <;> cases qos' <;> first | rfl | exact absurd h (by decide)

theorem bool_toNat_inj {b b' : Bool} (h : b.toNat = b'.toNat) : b = b' := by
  cases b <;> cases b' <;> first | rfl | exact absurd h (by decide)

/-- The flags of a will tell its quality of service and whether it is retained. -/
theorem will_flags_inj {will will' : Option Will}
    (h : will.elim 0 Will.flags = will'.elim 0 Will.flags) :
    will.map (fun w => (w.qos, w.retain)) = will'.map fun w => (w.qos, w.retain) := by
  cases will with
  | none =>
      cases will' with
      | none => rfl
      | some will' =>
          rw [Option.elim_none, Option.elim_some, Will.flags] at h
          omega
  | some will =>
      cases will' with
      | none =>
          rw [Option.elim_none, Option.elim_some, Will.flags] at h
          omega
      | some will' =>
          have hqos := qos_toNat_le will.qos
          have hqos' := qos_toNat_le will'.qos
          rw [Option.elim_some, Option.elim_some, Will.flags, Will.flags] at h
          have hsame : will.qos.toUInt8.toNat = will'.qos.toUInt8.toNat := by omega
          have hretain : will.retain.toNat = will'.retain.toNat := by omega
          show some (_, _) = some (_, _)
          rw [qos_toNat_inj hsame, bool_toNat_inj hretain]

/-- The flags of the user name tell whether there is one, and whether there is a password. -/
theorem credential_flags_inj {user user' : Option (MQTTString × Option MQTTString)}
    (h : credentialFlags user = credentialFlags user') :
    user.isSome = user'.isSome ∧ (user.bind Prod.snd).isSome = (user'.bind Prod.snd).isSome := by
  rcases user with _ | ⟨name, _ | password⟩ <;> rcases user' with _ | ⟨name', _ | password'⟩ <;>
    first | exact ⟨rfl, rfl⟩ | exact absurd h (by simp [credentialFlags])

/-- The flags of CONNECT say everything that is not in its body. -/
theorem connect_flags_inj {clean clean' : Bool} {will will' : Option Will}
    {user user' : Option (MQTTString × Option MQTTString)}
    (h : connectFlags clean will user = connectFlags clean' will' user') :
    clean = clean' ∧
      will.map (fun w => (w.qos, w.retain)) = will'.map (fun w => (w.qos, w.retain)) ∧
      user.isSome = user'.isSome ∧ (user.bind Prod.snd).isSome = (user'.bind Prod.snd).isSome := by
  -- The three parts of the sum have bits of their own.
  have hwill : ∀ will : Option Will, ∃ k ≤ 13, will.elim 0 Will.flags = 4 * k := by
    intro will
    cases will with
    | none => exact ⟨0, by omega, rfl⟩
    | some will =>
        have hqos := qos_toNat_le will.qos
        have hretain := Bool.toNat_le will.retain
        refine ⟨1 + 2 * will.qos.toUInt8.toNat + 8 * will.retain.toNat, by omega, ?_⟩
        rw [Option.elim_some, Will.flags]
        omega
  have huser : ∀ user, ∃ k ≤ 3, credentialFlags user = 64 * k := by
    rintro (_ | ⟨name, _ | password⟩)
    · exact ⟨0, by omega, rfl⟩
    · exact ⟨2, by omega, rfl⟩
    · exact ⟨3, by omega, rfl⟩
  obtain ⟨k, hk, hkeq⟩ := hwill will
  obtain ⟨k', hk', hkeq'⟩ := hwill will'
  obtain ⟨j, hj, hjeq⟩ := huser user
  obtain ⟨j', hj', hjeq'⟩ := huser user'
  have hclean := Bool.toNat_le clean
  have hclean' := Bool.toNat_le clean'
  have hsum := congrArg UInt8.toNat h
  rw [connectFlags, connectFlags, UInt8.toNat_ofNat', UInt8.toNat_ofNat', hkeq, hkeq', hjeq,
    hjeq'] at hsum
  refine ⟨bool_toNat_inj (by omega), will_flags_inj ?_, credential_flags_inj ?_⟩
  · rw [hkeq, hkeq']
    omega
  · rw [hjeq, hjeq']
    omega

/-- The flags of PUBLISH say everything that is not in its body. -/
theorem publish_flags_inj {delivery delivery' : Delivery} {retain retain' : Bool}
    (h : UInt8.ofNat (0x30 + delivery.flags + retain.toNat) =
      UInt8.ofNat (0x30 + delivery'.flags + retain'.toNat)) :
    retain = retain' ∧ delivery.identifier.isSome = delivery'.identifier.isSome ∧
      (delivery.identifier = delivery'.identifier → delivery = delivery') := by
  have hretain := Bool.toNat_le retain
  have hretain' := Bool.toNat_le retain'
  have hsum := congrArg UInt8.toNat h
  rw [UInt8.toNat_ofNat', UInt8.toNat_ofNat'] at hsum
  have hflags : ∀ delivery : Delivery, ∃ k ≤ 6, delivery.flags = 2 * k := by
    intro delivery
    cases delivery with
    | atMostOnce => exact ⟨0, by omega, rfl⟩
    | atLeastOnce duplicate _ =>
        have hduplicate := Bool.toNat_le duplicate
        refine ⟨4 * duplicate.toNat + 1, by omega, ?_⟩
        rw [Delivery.flags]
        omega
    | exactlyOnce duplicate _ =>
        have hduplicate := Bool.toNat_le duplicate
        refine ⟨4 * duplicate.toNat + 2, by omega, ?_⟩
        rw [Delivery.flags]
        omega
  obtain ⟨k, hk, hkeq⟩ := hflags delivery
  obtain ⟨k', hk', hkeq'⟩ := hflags delivery'
  rw [hkeq, hkeq'] at hsum
  have hsame : delivery.flags = delivery'.flags := by omega
  have hbit : retain.toNat = retain'.toNat := by omega
  refine ⟨bool_toNat_inj hbit, ?_⟩
  clear hkeq hkeq' hk hk' hsum hflags h
  cases delivery with
  | atMostOnce =>
      cases delivery' with
      | atMostOnce => exact ⟨rfl, fun _ => rfl⟩
      | atLeastOnce => exact absurd hsame (by simp [Delivery.flags])
      | exactlyOnce => exact absurd hsame (by simp [Delivery.flags])
  | atLeastOnce duplicate =>
      cases delivery' with
      | atMostOnce => exact absurd hsame (by simp [Delivery.flags])
      | atLeastOnce duplicate' =>
          rw [Delivery.flags, Delivery.flags] at hsame
          refine ⟨rfl, fun hid => ?_⟩
          rw [Option.some.inj hid,
            bool_toNat_inj (show duplicate.toNat = duplicate'.toNat by omega)]
      | exactlyOnce duplicate' =>
          rw [Delivery.flags, Delivery.flags] at hsame
          omega
  | exactlyOnce duplicate =>
      cases delivery' with
      | atMostOnce => exact absurd hsame (by simp [Delivery.flags])
      | atLeastOnce duplicate' =>
          rw [Delivery.flags, Delivery.flags] at hsame
          omega
      | exactlyOnce duplicate' =>
          rw [Delivery.flags, Delivery.flags] at hsame
          refine ⟨rfl, fun hid => ?_⟩
          rw [Option.some.inj hid,
            bool_toNat_inj (show duplicate.toNat = duplicate'.toNat by omega)]

namespace ControlPacket

/-- The number of the kind of packet in the MQTT standard. -/
def kind : ControlPacket → Nat
  | connect .. => 1
  | publish .. => 3
  | subscribe .. => 8
  | unsubscribe .. => 10

/-- The upper half of the first byte is the kind of packet. -/
theorem control_byte_kind (packet : ControlPacket) :
    packet.controlByte.toNat / 16 = packet.kind := by
  cases packet with
  | connect => exact show (0x10 : UInt8).toNat / 16 = 1 by decide
  | subscribe => exact show (0x82 : UInt8).toNat / 16 = 8 by decide
  | unsubscribe => exact show (0xA2 : UInt8).toNat / 16 = 10 by decide
  | publish delivery retain =>
      have hretain := Bool.toNat_le retain
      have hflags : delivery.flags ≤ 12 := by
        cases delivery with
        | atMostOnce => exact Nat.zero_le _
        | atLeastOnce duplicate _ =>
            have hduplicate := Bool.toNat_le duplicate
            rw [Delivery.flags]
            omega
        | exactlyOnce duplicate _ =>
            have hduplicate := Bool.toNat_le duplicate
            rw [Delivery.flags]
            omega
      rw [controlByte, UInt8.toNat_ofNat', kind]
      omega

theorem connect_inj {clean clean' : Bool} {keepAlive keepAlive' : UInt16}
    {clientId clientId' : MQTTString} {will will' : Option Will}
    {user user' : Option (MQTTString × Option MQTTString)}
    (h : (connect clean keepAlive clientId will user).body =
      (connect clean' keepAlive' clientId' will' user').body) :
    connect clean keepAlive clientId will user =
      connect clean' keepAlive' clientId' will' user' := by
  simp only [body] at h
  obtain ⟨hprotocol, hvariable⟩ := List.append_inj h rfl
  have hflags : connectFlags clean will user = connectFlags clean' will' user' := by
    simpa using hprotocol
  obtain ⟨rfl, hwill, huser, hpassword⟩ := connect_flags_inj hflags
  obtain ⟨rfl, hpayload⟩ := Field.word.append_inj hvariable
  obtain ⟨rfl, hafterId⟩ := stringField.append_inj hpayload
  have hpresent : will.isSome = will'.isSome := by
    have hmapped := congrArg Option.isSome hwill
    rwa [Option.isSome_map, Option.isSome_map] at hmapped
  obtain ⟨hmessage, hafterWill⟩ := willField.optional_inj (by simpa using hpresent) hafterId
  obtain ⟨hname, hafterName⟩ := stringField.optional_inj (by simpa using huser) hafterWill
  rw [← List.append_nil (stringField.optional (user.bind _)),
    ← List.append_nil (stringField.optional (user'.bind _))] at hafterName
  obtain ⟨hsecret, -⟩ := stringField.optional_inj hpassword hafterName
  have hwills : will = will' := by
    rcases will with _ | ⟨topic, message, qos, retain⟩ <;>
      rcases will' with _ | ⟨topic', message', qos', retain'⟩
    · rfl
    · exact absurd hpresent (by simp)
    · exact absurd hpresent (by simp)
    · simp only [Option.map_some, Option.some.injEq, Prod.mk.injEq] at hwill hmessage
      rw [hwill.1, hwill.2, hmessage.1, hmessage.2]
  have husers : user = user' := by
    rcases user with _ | ⟨name, secret⟩ <;> rcases user' with _ | ⟨name', secret'⟩
    · rfl
    · exact absurd huser (by simp)
    · exact absurd huser (by simp)
    · simp only [Option.map_some, Option.some.injEq] at hname
      rw [hname, show secret = secret' from hsecret]
  rw [hwills, husers]

theorem publish_inj {delivery delivery' : Delivery} {retain retain' : Bool}
    {topic topic' : MQTTString} {payload payload' : List UInt8}
    (hcontrol : (publish delivery retain topic payload).controlByte =
      (publish delivery' retain' topic' payload').controlByte)
    (h : (publish delivery retain topic payload).body =
      (publish delivery' retain' topic' payload').body) :
    publish delivery retain topic payload = publish delivery' retain' topic' payload' := by
  obtain ⟨rfl, hpresent, hdelivery⟩ := publish_flags_inj hcontrol
  simp only [body] at h
  obtain ⟨rfl, hafterTopic⟩ := stringField.append_inj h
  obtain ⟨hidentifier, rfl⟩ := Field.word.optional_inj hpresent hafterTopic
  rw [hdelivery hidentifier]

/-- A packet is known from its first byte and its body. -/
theorem body_inj {packet other : ControlPacket} (hcontrol : packet.controlByte = other.controlByte)
    (h : packet.body = other.body) : packet = other := by
  have hkind : packet.kind = other.kind := by
    rw [← packet.control_byte_kind, hcontrol, other.control_byte_kind]
  cases packet with
  | connect =>
      cases other with
      | connect => exact connect_inj h
      | _ => exact absurd hkind (by simp [kind])
  | subscribe identifier requests =>
      cases other with
      | subscribe identifier' requests' =>
          simp only [body] at h
          obtain ⟨rfl, hrequests⟩ := Field.word.append_inj h
          cases (stringField.pair qosField).flatMap_injective (fun _ => List.cons_ne_nil _ _)
            hrequests
          rfl
      | _ => exact absurd hkind (by simp [kind])
  | unsubscribe identifier filters =>
      cases other with
      | unsubscribe identifier' filters' =>
          simp only [body] at h
          obtain ⟨rfl, hfilters⟩ := Field.word.append_inj h
          cases stringField.flatMap_injective (fun _ => List.cons_ne_nil _ _) hfilters
          rfl
      | _ => exact absurd hkind (by simp [kind])
  | publish =>
      cases other with
      | publish => exact publish_inj hcontrol h
      | _ => exact absurd hkind (by simp [kind])

variable {packet other : ControlPacket} {bytes : List UInt8}

/-- No bytes are two packets. -/
theorem is_packet_unique (h : packet.IsPacket bytes) (hother : other.IsPacket bytes) :
    packet = other := by
  obtain ⟨field, rfl, hfield, -, -⟩ := h
  obtain ⟨field', heq, hfield', -, -⟩ := hother
  obtain ⟨hcontrol, htail⟩ := List.cons.inj heq
  obtain ⟨-, hbody⟩ := Varint.complete_prefix_code.eq_of_append_eq hfield hfield' htail
  exact body_inj hcontrol hbody

theorem IsPacket.decodes (h : packet.IsPacket bytes) : Decodes bytes packet := by
  intro other
  constructor
  · exact fun hother => is_packet_unique hother h
  · rintro rfl
    exact h

theorem Decodes.is_packet (h : Decodes bytes packet) : packet.IsPacket bytes := (h packet).mpr rfl

end ControlPacket

end TivaAws.Mqtt
