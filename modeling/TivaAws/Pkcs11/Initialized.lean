import TivaAws.Pkcs11.Lifetimes

/-!
# Initialized keys

`prvInitializeKey` puts the new key structure into the session before it parses the key and the
certificate, and `C_FindObjects` takes any current key for a loaded one. Without failed parses, and
if the operations are called when there is a key, every key that is found has been loaded, and
every key that is worked with is initialized.
-/

namespace TivaAws.Pkcs11

open Labelled Lifetime

/-- The key is set up, its sign function is saved, and no certificate has failed to be parsed. -/
structure P11Key.Initialized (key : P11Key) : Prop where
  xMbedPkCtx : key.xMbedPkCtx.isSome
  savedMbedPk : key.savedMbedPk.isSome
  xMbedX509Cli : ∀ raw, key.xMbedX509Cli ≠ .failed raw

/-- The certificate has been parsed successfully. -/
def MbedX509.IsParsed : MbedX509 → Prop
  | .parsed _ => True
  | _ => False

instance : DecidablePred MbedX509.IsParsed
  | .parsed _ => isTrue trivial
  | .zero | .failed _ => isFalse id

/-- Both the key and the certificate have been parsed. -/
def P11Key.Loaded (key : P11Key) : Prop :=
  key.xMbedPkCtx.isSome ∧ key.xMbedX509Cli.IsParsed

instance : DecidablePred P11Key.Loaded :=
  fun key => inferInstanceAs (Decidable (key.xMbedPkCtx.isSome ∧ key.xMbedX509Cli.IsParsed))

/-- What is found belongs to a loaded key, and what is worked with is an initialized key. -/
def Output.Sound : Output → Prop
  | .found objects current =>
      objectHandlePrivateKey ∈ objects ∨ objectHandleCertificate ∈ objects →
        ∃ loaded, current = some loaded ∧ loaded.Loaded
  | .operates current => ∃ used, current = some used ∧ used.Initialized
  | _ => True

/-! ## Prepared calls -/

/-- The stored key and certificate can be parsed. -/
def LoadOutcomes.Parses (o : LoadOutcomes) : Prop :=
  (o.pkParseKey (o.keyFile.getD o.clientcredentialClientPrivateKey)).isSome ∧
    (o.x509CrtParse (o.certificateFile.getD o.clientcredentialClientCertificate)).IsParsed

instance : DecidablePred LoadOutcomes.Parses :=
  fun _ => inferInstanceAs (Decidable (_ ∧ _))

/-- The attribute is one of the current key, and can be read without it. -/
def AttributeQuery.ReadsKey (query : AttributeQuery) (xObject : Nat) : Prop :=
  query.type = ckaValue ∧ xObject = objectHandleCertificate ∨ query.type = ckaModulusBits ∨
    query.type = ckaPrimeBits ∨ query.type = ckaVendorDefined ∧ query.hasValue ∧
      (AttributeData.keyContext none).length ≤ query.ulValueLen

instance (query : AttributeQuery) (xObject : Nat) : Decidable (query.ReadsKey xObject) :=
  inferInstanceAs (Decidable (_ ∨ _))

/-- The call is made when the session is prepared for it: a key that is loaded can be parsed, a
generated key is not searched for a certificate and not destroyed, and there is a key where one is
needed. -/
def SessionCall.Prepared (call : SessionCall) (session : P11Session) (keys : Keys) : Prop :=
  match call with
  | .destroyObject xObject => ¬ IsKeyPointer xObject
  | .findObjects _ _ _ o =>
      (session.pxCurrentKey = none → o.allocated.isSome → o.Parses) ∧
        ∀ key ∈ session.currentKey keys,
          session.xFindObjectClass = ckoPrivateKey ∨ session.xFindObjectClass = ckoCertificate →
            key.xMbedX509Cli ≠ .zero
  | .getAttributeValue xObject _ (some queries) =>
      (∃ query ∈ queries, query.ReadsKey xObject) → session.pxCurrentKey.isSome
  | .sign pulSignatureLen pucSignature ulDataLen _ =>
      pulSignatureLen ∧ pucSignature ∧ ulDataLen = sha256DigestBytes → session.pxCurrentKey.isSome
  | .verify pucData pucSignature _ =>
      pucData ∧ pucSignature ∧ session.xPublicKey = none → session.pxCurrentKey.isSome
  | _ => True

instance (session : P11Session) (keys : Keys) :
    (call : SessionCall) → Decidable (call.Prepared session keys)
  | .destroyObject xObject => inferInstanceAs (Decidable (¬ IsKeyPointer xObject))
  | .findObjects _ _ _ o => inferInstanceAs (Decidable
      ((session.pxCurrentKey = none → o.allocated.isSome → o.Parses) ∧
        ∀ key ∈ session.currentKey keys,
          session.xFindObjectClass = ckoPrivateKey ∨ session.xFindObjectClass = ckoCertificate →
            key.xMbedX509Cli ≠ .zero))
  | .getAttributeValue xObject _ (some queries) => inferInstanceAs (Decidable
      ((∃ query ∈ queries, query.ReadsKey xObject) → session.pxCurrentKey.isSome))
  | .sign pulSignatureLen pucSignature ulDataLen _ => inferInstanceAs (Decidable
      (pulSignatureLen ∧ pucSignature ∧ ulDataLen = sha256DigestBytes →
        session.pxCurrentKey.isSome))
  | .verify pucData pucSignature _ => inferInstanceAs (Decidable
      (pucData ∧ pucSignature ∧ session.xPublicKey = none → session.pxCurrentKey.isSome))
  | .getAttributeValue _ _ none | .createObject _ _ _ | .findObjectsInit _ | .findObjectsFinal
  | .digestInit _ _ | .digestUpdate _ _ | .digestFinal _ _ _ | .signInit _ | .verifyInit _
  | .generateKeyPair _ _ => isTrue trivial

/-- The same for the calls of the module. -/
def Call.Prepared (c : Cryptoki) : Call → Prop
  | .onSession xSession call => ∀ session ∈ c.sessions xSession, call.Prepared session c.keys
  | _ => True

instance (c : Cryptoki) : DecidablePred (Call.Prepared c)
  | .onSession xSession call =>
      inferInstanceAs (Decidable (∀ session ∈ c.sessions xSession, call.Prepared session c.keys))
  | .openSession _ _ _ _ | .closeSession _ => isTrue trivial

/-- A prepared call. -/
def preparedStep (c : Cryptoki) (call : Call) : Option (Cryptoki × List Output) :=
  if call.Prepared c then step c call else none

/-- Runs of prepared calls. -/
def PreparedExecutes (c : Cryptoki) (labels : List Output) (c' : Cryptoki) : Prop :=
  ∃ call, preparedStep c call = some (c', labels)

theorem SessionCall.Prepared.keeps_key {call : SessionCall} {session : P11Session} {keys : Keys}
    (h : call.Prepared session keys) : call.KeepsKey := by
  cases call with
  | destroyObject xObject => exact h
  | _ => trivial

/-! ## What calls do to the current key -/

variable {session : P11Session} {keys : Keys} {reply : Reply} {pxKey : Nat} {key : P11Key}

/-- The current key is initialized, if there is one. -/
def CurrentReady (session : P11Session) (keys : Keys) : Prop :=
  ∀ pxKey, session.pxCurrentKey = some pxKey → ∃ key, keys pxKey = some key ∧ key.Initialized

theorem CurrentReady.exists_key (hready : CurrentReady session keys)
    (hsome : session.pxCurrentKey.isSome) :
    ∃ pxKey key, session.pxCurrentKey = some pxKey ∧ keys pxKey = some key ∧ key.Initialized := by
  obtain ⟨pxKey, hkey⟩ := Option.isSome_iff_exists.mp hsome
  obtain ⟨key, hkeys, hinitialized⟩ := hready pxKey hkey
  exact ⟨pxKey, key, hkey, hkeys, hinitialized⟩

/-- A function with sound outputs that leaves an initialized current key. -/
structure ReadyEffect (reply : Reply) : Prop where
  sound : ∀ output ∈ reply.outputs, output.Sound
  ready : CurrentReady reply.session reply.keys

theorem sound_nil : ∀ output ∈ ([] : List Output), output.Sound :=
  fun _ hmem => absurd hmem List.not_mem_nil

/-- The output says nothing about a key that is found or worked with. -/
theorem sound_key (action : Action Nat) : (Output.key action).Sound :=
  trivial

theorem sound_singleton {output : Output} (h : output.Sound) :
    ∀ other ∈ [output], other.Sound := by
  intro other hmem
  rw [List.mem_singleton.mp hmem]
  exact h

theorem sound_append {first second : List Output} (hfirst : ∀ output ∈ first, output.Sound)
    (hsecond : ∀ output ∈ second, output.Sound) : ∀ output ∈ first ++ second, output.Sound := by
  intro output hmem
  rcases List.mem_append.mp hmem with hmem | hmem
  · exact hfirst output hmem
  · exact hsecond output hmem

/-- A function that leaves the current key as it is. -/
theorem ReadyEffect.same (hready : CurrentReady session keys)
    (hsession : reply.session.pxCurrentKey = session.pxCurrentKey) (hkeys : reply.keys = keys)
    (hsound : ∀ output ∈ reply.outputs, output.Sound) : ReadyEffect reply := by
  refine ⟨hsound, fun pxKey hkey => ?_⟩
  rw [hkeys]
  exact hready pxKey (hsession ▸ hkey)

theorem ReadyEffect.done {result : CKRV} {session' : P11Session}
    (hready : CurrentReady session keys)
    (hsession : session'.pxCurrentKey = session.pxCurrentKey) :
    ReadyEffect (.done result session' keys) :=
  .same hready hsession rfl sound_nil

/-- Following the pointer to the current key. -/
theorem follow_key_ready (hready : CurrentReady session keys)
    (hsome : session.pxCurrentKey.isSome) (operation : P11Key → Option CKRV) :
    ReadyEffect (followKey session keys operation) := by
  obtain ⟨pxKey, key, hkey, hkeys, hinitialized⟩ := hready.exists_key hsome
  have hreply : followKey session keys operation =
      ⟨operation key, session, keys, [.key (.use pxKey), .operates (some key)]⟩ := by
    unfold followKey
    simp only [hkey, hkeys]
  rw [hreply]
  refine .same hready rfl rfl ?_
  exact sound_append (sound_singleton (sound_key (.use pxKey)))
    (sound_singleton ⟨key, rfl, hinitialized⟩)

/-- Reading a value from the current key. -/
theorem read_key_sound (hready : CurrentReady session keys) (hsome : session.pxCurrentKey.isSome)
    (value : P11Key → Except CKRV AttributeData) :
    ∀ output ∈ (readKey session keys value).2, output.Sound := by
  obtain ⟨pxKey, key, hkey, hkeys, hinitialized⟩ := hready.exists_key hsome
  unfold readKey
  simp only [hkey, hkeys]
  split
  next => exact sound_singleton (sound_key _)
  next =>
    exact sound_append (sound_singleton (sound_key (.use pxKey)))
      (sound_singleton ⟨key, rfl, hinitialized⟩)

/-- Reading an attribute that is not one of the key, or when there is a key. -/
theorem attribute_data_sound (hready : CurrentReady session keys) (xObject bitlen : Nat)
    (query : AttributeQuery) (hreads : query.ReadsKey xObject → session.pxCurrentKey.isSome) :
    ∀ output ∈ (attributeData xObject bitlen query session keys).2, output.Sound := by
  unfold attributeData
  split
  next =>
    unfold keyTypeAttribute
    split
    next => exact sound_nil
    next hsome =>
      exact read_key_sound hready (by simpa [Option.isSome_iff_ne_none] using hsome) _
  next =>
    split
    next hvalue =>
      unfold valueAttribute
      split
      next hcertificate => exact read_key_sound hready (hreads (.inl ⟨hvalue, hcertificate⟩)) _
      next => split <;> exact sound_nil
    next =>
      split
      next hbits =>
        have hsome : session.pxCurrentKey.isSome := by
          rcases hbits with hbits | hbits
          · exact hreads (.inr (.inl hbits))
          · exact hreads (.inr (.inr (.inl hbits)))
        unfold bitLengthAttribute
        split
        next hnone => simp [Option.isNone_iff_eq_none.mp hnone] at hsome
        next => exact read_key_sound hready hsome _
      next =>
        split
        next hvendor =>
          unfold keyContextAttribute
          split
          next hcopied =>
            exact read_key_sound hready (hreads (.inr (.inr (.inr ⟨hvendor, hcopied⟩)))) _
          next => exact sound_nil
        next => exact sound_nil

theorem get_attributes_sound (hready : CurrentReady session keys) (xObject bitlen : Nat)
    {queries : List AttributeQuery}
    (hreads : ∀ query ∈ queries, query.ReadsKey xObject → session.pxCurrentKey.isSome) :
    ∀ output ∈ (getAttributes xObject bitlen session keys queries).2.2, output.Sound := by
  induction queries with
  | nil => exact sound_nil
  | cons query rest ih =>
      have hfirst := attribute_data_sound hready xObject bitlen query
        (hreads query List.mem_cons_self)
      have hrest := ih fun other hmem => hreads other (List.mem_cons_of_mem _ hmem)
      unfold getAttributes
      split
      next houtputs => exact congrArg Prod.snd houtputs ▸ hfirst
      next houtputs => exact congrArg Prod.snd houtputs ▸ hfirst
      next houtputs =>
        have hfirst := congrArg Prod.snd houtputs ▸ hfirst
        split
        next => exact hfirst
        next => exact sound_append hfirst hrest

/-- `C_GetAttributeValue`. -/
theorem get_attribute_value_ready (hready : CurrentReady session keys) {xObject bitlen : Nat}
    {pxTemplate : Option (List AttributeQuery)}
    (hprepared : (SessionCall.getAttributeValue xObject bitlen pxTemplate).Prepared session keys) :
    ReadyEffect (cGetAttributeValue xObject bitlen pxTemplate session keys) := by
  cases pxTemplate with
  | none => exact .done hready rfl
  | some queries =>
      refine .same hready rfl rfl (sound_append ?_ (sound_singleton trivial))
      exact get_attributes_sound hready xObject bitlen
        fun query hmem hreads => hprepared ⟨query, hmem, hreads⟩

/-- A key that has been parsed with its certificate. -/
theorem LoadOutcomes.Parses.fields {o : LoadOutcomes} (hparses : o.Parses) (memory : P11Key) :
    ∃ loaded, initializeFields o (some (o.keyFile.getD o.clientcredentialClientPrivateKey))
        (some (o.certificateFile.getD o.clientcredentialClientCertificate)) memory =
      (.ok, loaded) ∧ loaded.Loaded ∧ loaded.Initialized := by
  obtain ⟨hkey, hparsed⟩ := hparses
  obtain ⟨pk, hpk⟩ := Option.isSome_iff_exists.mp hkey
  unfold initializeFields initializeKeyField initializeCertificateField
  simp only [hpk]
  cases hcertificate : o.x509CrtParse
      (o.certificateFile.getD o.clientcredentialClientCertificate) with
  | parsed raw => exact ⟨⟨some pk, .parsed raw, some pk⟩, rfl, ⟨rfl, trivial⟩, rfl, rfl, nofun⟩
  | zero =>
      rw [hcertificate] at hparsed
      exact absurd hparsed id
  | failed raw =>
      rw [hcertificate] at hparsed
      exact absurd hparsed id

/-- The objects of a class that are a private key or a certificate. -/
theorem objects_of_class {objectClass : Nat}
    (h : objectHandlePrivateKey ∈ objectsOfClass objectClass ∨
      objectHandleCertificate ∈ objectsOfClass objectClass) :
    objectClass = ckoPrivateKey ∨ objectClass = ckoCertificate := by
  unfold objectsOfClass at h
  split_ifs at h with hprivate hpublic hcertificate
  · exact .inl hprivate
  · exact absurd h (by decide)
  · exact .inr hcertificate
  · exact absurd h (by decide)

/-- A session with a key that has just been loaded. -/
theorem load_ready (hkey : session.pxCurrentKey = some pxKey) (hloaded : key.Loaded)
    (hinitialized : key.Initialized) :
    ReadyEffect (returnObjects session (Function.update keys pxKey (some key))
      [.key (.acquire pxKey), .key (.use pxKey)]) := by
  have hcurrent : session.currentKey (Function.update keys pxKey (some key)) = some key := by
    rw [P11Session.currentKey, hkey]
    exact Function.update_self _ _ _
  constructor
  · refine sound_append ?_ (sound_singleton fun _ => ⟨key, hcurrent, hloaded⟩)
    exact sound_append (sound_singleton (sound_key (.acquire pxKey)))
      (sound_singleton (sound_key _))
  · intro other hother
    rw [← Option.some.inj (hkey.symm.trans hother)]
    exact ⟨key, Function.update_self _ _ _, hinitialized⟩

/-- `C_FindObjects`. -/
theorem find_objects_ready (hready : CurrentReady session keys) {pxObject pulObjectCount : Bool}
    {ulMaxObjectCount : Nat} {o : LoadOutcomes}
    (hprepared : (SessionCall.findObjects pxObject pulObjectCount ulMaxObjectCount o).Prepared
      session keys) :
    ReadyEffect (cFindObjects pxObject pulObjectCount ulMaxObjectCount o session keys) := by
  obtain ⟨hparses, hgenerated⟩ := hprepared
  unfold cFindObjects
  -- The checks of the parameters come first and change nothing.
  split
  next => exact .done hready rfl
  next =>
    split
    next => exact .done hready rfl
    next =>
      split
      next => exact .done hready rfl
      next =>
        split
        next =>
          refine .same hready rfl rfl (sound_singleton ?_)
          exact fun hmem => absurd hmem (by decide)
        next =>
          split
          -- Without a current key the default one is loaded, and what is stored must parse.
          next hnone =>
            have hnone : session.pxCurrentKey = none := Option.isNone_iff_eq_none.mp hnone
            unfold prvLoadAndInitializeDefaultCertificateAndKey prvInitializeKey
            simp only [hnone]
            cases hallocated : o.allocated with
            | none => exact .done hready rfl
            | some block =>
                obtain ⟨loaded, hfields, hloaded, hinitialized⟩ :=
                  (hparses hnone (by rw [hallocated]; rfl)).fields block.2
                simp only [hfields, if_true]
                exact load_ready rfl hloaded hinitialized
          -- With one, the certificate of a generated key is not asked for.
          next hsome =>
            have hsome : session.pxCurrentKey.isSome := by
              simpa [Option.isSome_iff_ne_none] using hsome
            obtain ⟨pxKey, key, hkey, hkeys, hinitialized⟩ := hready.exists_key hsome
            have hcurrent : session.currentKey keys = some key := by
              rw [P11Session.currentKey, hkey]
              exact hkeys
            refine .same hready rfl rfl (sound_singleton fun hmem => ?_)
            refine ⟨key, hcurrent, hinitialized.xMbedPkCtx, ?_⟩
            have hzero := hgenerated key hcurrent (objects_of_class hmem)
            cases hcertificate : key.xMbedX509Cli with
            | zero => exact absurd hcertificate hzero
            | failed raw => exact absurd hcertificate (hinitialized.xMbedX509Cli raw)
            | parsed raw => exact trivial

/-- A generated key becomes the current key. -/
theorem attach_key_ready (hfree : keys pxKey = none) (hready : CurrentReady session keys)
    (hinitialized : key.Initialized) : ReadyEffect (attachKey pxKey key session keys) := by
  have hacquired : ∀ output ∈ [Output.key (.acquire pxKey), Output.key (.use pxKey)],
      output.Sound :=
    sound_append (sound_singleton (sound_key (.acquire pxKey))) (sound_singleton (sound_key _))
  unfold attachKey
  cases hcase : session.pxCurrentKey with
  | none =>
      refine ⟨sound_append hacquired (sound_singleton trivial), fun other hother => ?_⟩
      rw [← Option.some.inj hother]
      exact ⟨key, Function.update_self _ _ _, hinitialized⟩
  | some pxOldKey =>
      obtain ⟨old, hold, -⟩ := hready pxOldKey hcase
      have hne : pxOldKey ≠ pxKey := by
        rintro rfl
        rw [hfree] at hold
        cases hold
      have hfreed : ∀ output ∈ [Output.key (.use pxOldKey), Output.key (.release pxOldKey)],
          output.Sound :=
        sound_append (sound_singleton (sound_key (.use pxOldKey)))
          (sound_singleton (sound_key _))
      simp only [prvFreeKey, Function.update_of_ne hne, hold, Option.isSome_some, if_true]
      refine ⟨sound_append (sound_append hacquired hfreed) (sound_singleton trivial),
        fun other hother => ?_⟩
      rw [← Option.some.inj hother]
      refine ⟨key, ?_, hinitialized⟩
      exact (Function.update_of_ne hne.symm _ _).trans (Function.update_self _ _ _)

/-- A new key is freed again. -/
theorem discard_key_ready (hready : CurrentReady session keys) (result : CKRV) (pxNewKey : Nat) :
    ReadyEffect (discardKey result pxNewKey session keys) := by
  refine .same hready rfl rfl ?_
  exact sound_append (sound_singleton (sound_key (.acquire pxNewKey)))
    (sound_append (sound_singleton (sound_key (.use pxNewKey))) (sound_singleton (sound_key _)))

/-- `C_GenerateKeyPair`. -/
theorem generate_key_pair_ready (hready : CurrentReady session keys)
    (arguments : GenerateArguments) (o : GenerateOutcomes)
    (hfree : ∀ pxKey, o.allocated = some pxKey → keys pxKey = none) :
    ReadyEffect (cGenerateKeyPair arguments o session keys) := by
  unfold cGenerateKeyPair
  split
  next => exact .done hready rfl
  next =>
    split
    next => exact .done hready rfl
    next pxNewKey hallocated =>
      split
      next => exact discard_key_ready hready _ _
      next pk _ =>
        split
        next =>
          exact attach_key_ready (hfree pxNewKey hallocated) hready
            ⟨rfl, rfl, fun _ hfailed => (by cases hfailed)⟩
        next => exact discard_key_ready hready _ _

/-- `C_CreateObject`. -/
theorem create_object_ready (hready : CurrentReady session keys)
    (pxTemplate : Option (List CKAttribute)) (pxObject : Bool) (o : CreateOutcomes) :
    ReadyEffect (cCreateObject pxTemplate pxObject o session keys) := by
  have hcertificate : ∀ value certificateType,
      ∀ output ∈ (createCertificate o value certificateType).2, output.Sound := by
    intro value certificateType
    unfold createCertificate
    repeat' split
    all_goals first | exact sound_nil | exact sound_singleton trivial
  have hpublic : ∀ value, (∀ output ∈ (createPublicKey o value session).2.2, output.Sound) ∧
      (createPublicKey o value session).2.1.pxCurrentKey = session.pxCurrentKey := by
    intro value
    unfold createPublicKey
    repeat' split
    · exact ⟨sound_nil, rfl⟩
    · exact ⟨sound_nil, rfl⟩
    · exact ⟨sound_singleton trivial, rfl⟩
  have hprivate : ∀ value, ∀ output ∈ (createPrivateKey o value).2, output.Sound := by
    intro value
    unfold createPrivateKey
    repeat' split
    all_goals first | exact sound_nil | exact sound_singleton trivial
  unfold cCreateObject
  repeat' split
  all_goals first
    | exact .done hready rfl
    | exact .same hready rfl rfl (hcertificate _ _)
    | exact .same hready (hpublic _).2 rfl (hpublic _).1
    | exact .same hready rfl rfl (hprivate _)

/-- What a prepared call does. -/
theorem SessionCall.ready_effect {call : SessionCall} (hready : CurrentReady session keys)
    (hprepared : call.Prepared session keys)
    (hfree : ∀ pxKey, call.allocated = some pxKey → keys pxKey = none) :
    ReadyEffect (call.execute session keys) := by
  cases call with
  | createObject pxTemplate pxObject o => exact create_object_ready hready _ _ _
  | destroyObject xObject =>
      show ReadyEffect (cDestroyObject xObject session keys)
      unfold cDestroyObject
      rw [if_neg hprepared]
      exact .done hready rfl
  | getAttributeValue xObject bitlen pxTemplate => exact get_attribute_value_ready hready hprepared
  | findObjectsInit pxTemplate => cases pxTemplate <;> exact .done hready rfl
  | findObjects pxObject pulObjectCount ulMaxObjectCount o =>
      exact find_objects_ready hready hprepared
  | findObjectsFinal =>
      show ReadyEffect (cFindObjectsFinal session keys)
      unfold cFindObjectsFinal
      split <;> exact .done hready rfl
  | digestInit mechanism started =>
      show ReadyEffect (cDigestInit mechanism started session keys)
      unfold cDigestInit
      split_ifs <;> exact .done hready rfl
  | digestUpdate pPart updated =>
      show ReadyEffect (cDigestUpdate pPart updated session keys)
      unfold cDigestUpdate
      split_ifs <;> exact .done hready rfl
  | digestFinal pDigest pulDigestLen finished =>
      show ReadyEffect (cDigestFinal pDigest pulDigestLen finished session keys)
      unfold cDigestFinal
      split_ifs <;>
        first | exact .done hready rfl | exact .same hready rfl rfl (sound_singleton trivial)
  | signInit pxMechanism => exact .done hready rfl
  | sign pulSignatureLen pucSignature ulDataLen signed =>
      show ReadyEffect (cSign pulSignatureLen pucSignature ulDataLen signed session keys)
      unfold cSign
      split
      next => exact .done hready rfl
      next hlength =>
        split
        next => exact .same hready rfl rfl (sound_singleton trivial)
        next hsignature =>
          split
          next => exact .done hready rfl
          next hdata =>
            exact follow_key_ready hready
              (hprepared ⟨by simpa using hlength, by simpa using hsignature, by simpa using hdata⟩)
                _
  | verifyInit pxMechanism => exact .done hready rfl
  | verify pucData pucSignature verified =>
      show ReadyEffect (cVerify pucData pucSignature verified session keys)
      unfold cVerify
      split
      next => exact .done hready rfl
      next hpointers =>
        split
        next => exact .done hready rfl
        next hpublic =>
          obtain ⟨hdata, hsignature⟩ := not_or.mp hpointers
          exact follow_key_ready hready
            (hprepared ⟨by simpa using hdata, by simpa using hsignature, by simpa using hpublic⟩) _
  | generateKeyPair arguments o => exact generate_key_pair_ready hready _ _ hfree

/-! ## Every run -/

/-- Every session owns its current key, which is initialized. -/
structure Ready (c : Cryptoki) : Prop where
  owned : ∃ live, Owned c live
  ready : ∀ xSession session, c.sessions xSession = some session → CurrentReady session c.keys

variable {c c' : Cryptoki} {labels : List Output} {xSession : Nat}

/-- A prepared call keeps the keys. -/
theorem PreparedExecutes.keeping (hready : Ready c) (hexecutes : PreparedExecutes c labels c') :
    ∃ live, Owned c' live := by
  obtain ⟨call, hexecutes⟩ := hexecutes
  unfold preparedStep at hexecutes
  split_ifs at hexecutes with hprepared
  have hstep := hexecutes
  obtain ⟨live, howned⟩ := hready.owned
  by_cases hkeeps : call.KeepsKeys
  · have hkeeping : KeepingExecutes c labels c' := ⟨call, (if_pos hkeeps).trans hstep⟩
    exact ⟨_, (hkeeping.owned howned).2⟩
  -- A call that does not keep the keys is not prepared, unless there is no such session.
  · exfalso
    cases call with
    | openSession pxSession serialSession allocated seeded => exact hkeeps trivial
    | closeSession xSession => exact hkeeps trivial
    | onSession xSession call =>
        unfold step at hstep
        simp only at hstep
        split_ifs at hstep
        obtain ⟨session, hsession, -⟩ := Option.map_eq_some_iff.mp hstep
        exact hkeeps (hprepared session hsession).keeps_key

/-- A call on a session leaves the keys of all sessions initialized. -/
theorem Ready.call_session (hready : Ready c) (hsession : c.sessions xSession = some session)
    {call : SessionCall} (hprepared : call.Prepared session c.keys)
    (hfree : ∀ pxKey, call.allocated = some pxKey → c.keys pxKey = none) :
    (∀ output ∈ (callSession xSession call session c).2, output.Sound) ∧
      ∀ other session', (callSession xSession call session c).1.sessions other = some session' →
        CurrentReady session' (callSession xSession call session c).1.keys := by
  obtain ⟨live, howned⟩ := hready.owned
  have heffect := call.key_effect hprepared.keeps_key (howned.current xSession session hsession)
    hfree
  obtain ⟨hsound, hcurrent⟩ := SessionCall.ready_effect
    (hready.ready xSession session hsession) hprepared hfree
  constructor
  · refine sound_append hsound (sound_singleton ?_)
    unfold Reply.final
    cases (call.execute session c.keys).result <;> trivial
  · intro other session' hsession'
    rcases sessions_after (c := c) rfl hsession' with ⟨rfl, rfl⟩ | ⟨hne, hbefore⟩
    · exact hcurrent
    · intro pxKey hkey
      obtain ⟨key, hkeys, hinitialized⟩ := hready.ready other session' hbefore pxKey hkey
      refine ⟨key, ?_, hinitialized⟩
      exact (howned.other_session hsession heffect hne hbefore hkey).2.2.trans hkeys

/-- Closing a session leaves the keys of the others as they are. -/
theorem Ready.close_session (hready : Ready c) (hsession : c.sessions xSession = some session) :
    (∀ output ∈ (cCloseSession xSession session c).2, output.Sound) ∧
      ∀ other session', (cCloseSession xSession session c).1.sessions other = some session' →
        CurrentReady session' (cCloseSession xSession session c).1.keys := by
  obtain ⟨live, howned⟩ := hready.owned
  unfold cCloseSession
  cases hcase : session.pxCurrentKey with
  | none =>
      exact ⟨sound_singleton trivial, fun other session' hsession' =>
        hready.ready other session' (sessions_left hsession').2⟩
  | some pxKey =>
      constructor
      · refine sound_append (sound_append (sound_singleton (sound_key (.use pxKey)))
          (sound_singleton (sound_key (.release pxKey)))) (sound_singleton ?_)
        split <;> trivial
      · intro other session' hsession' pxKey' hkey'
        obtain ⟨hne, hbefore⟩ := sessions_left hsession'
        obtain ⟨key, hkeys, hinitialized⟩ := hready.ready other session' hbefore pxKey' hkey'
        refine ⟨key, (Function.update_of_ne ?_ _ _).trans hkeys, hinitialized⟩
        rintro rfl
        exact hne (howned.unique other xSession session' session pxKey' hbefore hsession hkey'
          hcase)

/-- Opening a session. -/
theorem Ready.open_call (hready : Ready c) (pxSession serialSession : Bool)
    (allocated : Option Nat) (seeded : Bool) :
    (∀ output ∈ (cOpenSession pxSession serialSession allocated seeded c).2, output.Sound) ∧
      ∀ other session',
        (cOpenSession pxSession serialSession allocated seeded c).1.sessions other =
            some session' →
          CurrentReady session'
            (cOpenSession pxSession serialSession allocated seeded c).1.keys := by
  have hsame : ∀ result, (∀ output ∈ [Output.returns result], output.Sound) ∧
      ∀ other session', c.sessions other = some session' → CurrentReady session' c.keys :=
    fun _ => ⟨sound_singleton trivial, hready.ready⟩
  unfold cOpenSession
  split
  next => exact hsame _
  next =>
    split
    next => exact hsame _
    next =>
      split
      next => exact hsame _
      next xSession =>
        split
        next =>
          refine ⟨sound_singleton trivial, fun other session' hsession' => ?_⟩
          rcases sessions_after (c := c) rfl hsession' with ⟨rfl, rfl⟩ | ⟨-, hbefore⟩
          · exact fun pxKey hkey => by cases hkey
          · exact hready.ready other session' hbefore
        next => exact hsame _

/-- A prepared call. -/
theorem PreparedExecutes.ready (hready : Ready c) (hexecutes : PreparedExecutes c labels c') :
    (∀ output ∈ labels, output.Sound) ∧ Ready c' := by
  have howned := PreparedExecutes.keeping hready hexecutes
  -- Ownership is known already, so what is left is that the current keys are initialized.
  suffices h : (∀ output ∈ labels, output.Sound) ∧
      ∀ other session', c'.sessions other = some session' → CurrentReady session' c'.keys from
    ⟨h.1, howned, h.2⟩
  obtain ⟨call, hexecutes⟩ := hexecutes
  unfold preparedStep at hexecutes
  split_ifs at hexecutes with hprepared
  have hstep := hexecutes
  unfold step at hstep
  split at hstep
  · cases hstep
  cases call with
  | openSession pxSession serialSession allocated seeded =>
      simp only at hstep
      split at hstep
      next =>
        have hopen := hready.open_call pxSession serialSession allocated seeded
        rw [Option.some.inj hstep] at hopen
        exact hopen
      next => cases hstep
  | closeSession xSession =>
      simp only at hstep
      split at hstep
      · cases hstep
        exact ⟨sound_singleton trivial, hready.ready⟩
      · obtain ⟨session, hsession, heq⟩ := Option.map_eq_some_iff.mp hstep
        have hclose := hready.close_session hsession
        rw [heq] at hclose
        exact hclose
  | onSession xSession call =>
      simp only at hstep
      split at hstep
      next hallowed =>
        obtain ⟨session, hsession, heq⟩ := Option.map_eq_some_iff.mp hstep
        have hcall := hready.call_session hsession (hprepared session hsession)
          fun pxKey hallocated => (hallowed.1 pxKey hallocated).1
        rw [heq] at hcall
        exact hcall
      next => cases hstep

/-- A search for the private key, with the result of parsing it. -/
def searchKey (allocated : Option Nat) (pk : Option MbedPk) : List SessionCall :=
  [.findObjectsInit (some ckoPrivateKey),
    .findObjects true true 1
      ⟨allocated.map fun pxKey => (pxKey, .zero), none, none, fun _ => pk,
        fun _ => .parsed [0x30], [], []⟩]

/-- A session that finds the private key and signs. -/
def foundKey : List Call :=
  .openSession true true (some 8) true ::
    (searchKey (some 16) (some ⟨.rsa, 0⟩) ++ [SessionCall.sign true true 32 true]).map
      (.onSession 8)

/-- A search whose key cannot be parsed, which is repeated. -/
def retriedSearch : List Call :=
  .openSession true true (some 8) true ::
    (searchKey (some 16) none ++ searchKey none none).map (.onSession 8)

end TivaAws.Pkcs11
