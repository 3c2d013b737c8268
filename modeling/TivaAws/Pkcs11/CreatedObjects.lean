import TivaAws.Pkcs11.Initialized

/-!
# Objects that are created

`C_CreateObject` promises that nothing has changed if it fails, and that the given object is there
under the returned handle if it succeeds. It breaks the promise in four ways: it frees the public
key of the session before it parses the new one, it reports success for a certificate that is not a
user certificate, and what it saves as a certificate or a private key is not stored, since writing
and reading files is compiled out (`create_object_iff`).
-/

namespace TivaAws.Pkcs11

variable {session : P11Session} {keys : Keys} {o : CreateOutcomes}

/-! ## Objects -/

/-- An object of a session. -/
inductive P11Object where
  | certificate (raw : List UInt8)
  | publicKey (context : MbedPk)
  | privateKey (raw : List UInt8)
  deriving DecidableEq, Repr

/-- The credentials that are built in. -/
structure ClientCredential where
  clientcredentialClientCertificate : List UInt8
  clientcredentialClientPrivateKey : List UInt8

/-- `PKCS11_PAL_ReadFile`, which never finds a file. -/
def pkcs11PALReadFile (_fileName : String) : Option (List UInt8) := none

/-- The certificate that `prvLoadAndInitializeDefaultCertificateAndKey` finds. -/
def ClientCredential.storedCertificate (c : ClientCredential) : List UInt8 :=
  (pkcs11PALReadFile "ClientCert.crt").getD c.clientcredentialClientCertificate

/-- The key that it finds. -/
def ClientCredential.storedKey (c : ClientCredential) : List UInt8 :=
  (pkcs11PALReadFile "PrivateKey.key").getD c.clientcredentialClientPrivateKey

/-- The object that a handle stands for. -/
def P11Session.object (c : ClientCredential) (session : P11Session) (handle : Nat) :
    Option P11Object :=
  if handle = objectHandlePublicKey then session.xPublicKey.map .publicKey
  else if handle = objectHandlePrivateKey then some (.privateKey c.storedKey)
  else if handle = objectHandleCertificate then some (.certificate c.storedCertificate)
  else none

/-! ## Templates -/

/-- A template as `C_CreateObject` reads it. -/
inductive Template where
  | certificate (value certificateType : CKAttribute)
  | publicKey (value : CKAttribute)
  | privateKey (value : CKAttribute)

/-- The attribute with the value. -/
def Template.value : Template → CKAttribute
  | .certificate value _ => value
  | .publicKey value => value
  | .privateKey value => value

/-- The first attribute is the class of the object. -/
def CKAttribute.IsClass (attributeClass : CKAttribute) (objectClass : Nat) : Prop :=
  attributeClass.type = ckaClass ∧ attributeClass.ulValueLen = 4 ∧
    attributeClass.uint32 = objectClass

instance (attributeClass : CKAttribute) (objectClass : Nat) :
    Decidable (attributeClass.IsClass objectClass) :=
  inferInstanceAs (Decidable (_ ∧ _ ∧ _))

/-- Read a template: every class has its number of attributes, and its value at one of them. -/
def readTemplate : Option (List CKAttribute) → Option Template
  | some [attributeClass, second, third] =>
      if attributeClass.IsClass ckoCertificate ∧ second.type = ckaValue then
        some (.certificate second third)
      else if attributeClass.IsClass ckoPublicKey ∧ third.type = ckaValue then
        some (.publicKey third)
      else none
  | some [attributeClass, _, _, value] =>
      if attributeClass.IsClass ckoPrivateKey ∧ value.type = ckaValue then some (.privateKey value)
      else none
  | _ => none

/-- The object that a template gives. -/
def Template.object (o : CreateOutcomes) : Template → Option P11Object
  | .certificate value _ => some (.certificate value.bytes)
  | .publicKey value => (o.pkParsePublicKey value.bytes).map .publicKey
  | .privateKey value => some (.privateKey value.bytes)

/-- What `C_CreateObject` does with a template that it can read. -/
def Template.create (o : CreateOutcomes) (session : P11Session) (keys : Keys) : Template → Reply
  | .certificate value certificateType =>
      let created := createCertificate o value certificateType
      ⟨some created.1, session, keys, created.2⟩
  | .publicKey value =>
      let created := createPublicKey o value session
      ⟨some created.1, created.2.1, keys, created.2.2⟩
  | .privateKey value =>
      let created := createPrivateKey o value
      ⟨some created.1, session, keys, created.2⟩

/-- Without a template that can be read, nothing happens. -/
theorem create_object_eq (pxTemplate : Option (List CKAttribute)) (o : CreateOutcomes)
    (session : P11Session) (keys : Keys) :
    cCreateObject pxTemplate true o session keys =
      match readTemplate pxTemplate with
      | some template => template.create o session keys
      | none => .done .argumentsBad session keys := by
  have hshape : ∀ attributeClass : CKAttribute,
      ¬ (attributeClass.type ≠ ckaClass ∨ attributeClass.ulValueLen ≠ 4) ↔
        attributeClass.type = ckaClass ∧ attributeClass.ulValueLen = 4 := by
    intro attributeClass
    rw [not_or, not_not, not_not]
  -- The source reads a fixed number of attributes, and what their types mean depends on the class.
  match pxTemplate with
  | none | some [] | some [_] | some [_, _] => rfl
  | some [attributeClass, second, third] =>
      by_cases hclass : attributeClass.type = ckaClass ∧ attributeClass.ulValueLen = 4
      · unfold cCreateObject
        simp only
        rw [if_neg ((hshape attributeClass).mpr hclass)]
        by_cases hcertificate : attributeClass.uint32 = ckoCertificate
        · have hother : attributeClass.uint32 ≠ ckoPublicKey := by
            rw [hcertificate]
            exact nofun
          rw [if_pos hcertificate]
          simp only [readTemplate]
          by_cases hvalue : second.type = ckaValue
          · rw [if_pos ⟨⟨hclass.1, hclass.2, hcertificate⟩, hvalue⟩]
            rfl
          · rw [if_neg fun h => hvalue h.2, if_neg fun h => hother h.1.2.2]
            unfold createCertificate
            rw [if_pos hvalue]
            rfl
        · rw [if_neg hcertificate]
          by_cases hpublic : attributeClass.uint32 = ckoPublicKey
          · rw [if_pos hpublic]
            simp only [readTemplate]
            rw [if_neg fun h => hcertificate h.1.2.2]
            by_cases hvalue : third.type = ckaValue
            · rw [if_pos ⟨⟨hclass.1, hclass.2, hpublic⟩, hvalue⟩]
              rfl
            · rw [if_neg fun h => hvalue h.2]
              unfold createPublicKey
              rw [if_pos hvalue]
              rfl
          · rw [if_neg hpublic, ite_self]
            simp only [readTemplate]
            rw [if_neg fun h => hcertificate h.1.2.2, if_neg fun h => hpublic h.1.2.2]
      · unfold cCreateObject
        simp only
        rw [if_pos (not_not.mp fun h => hclass ((hshape attributeClass).mp h))]
        simp only [readTemplate]
        rw [if_neg fun h => hclass ⟨h.1.1, h.1.2.1⟩, if_neg fun h => hclass ⟨h.1.1, h.1.2.1⟩]
  | some [attributeClass, second, third, value] =>
      by_cases hclass : attributeClass.type = ckaClass ∧ attributeClass.ulValueLen = 4
      · unfold cCreateObject
        simp only
        rw [if_neg ((hshape attributeClass).mpr hclass)]
        by_cases hprivate : attributeClass.uint32 = ckoPrivateKey
        · have hcertificate : attributeClass.uint32 ≠ ckoCertificate := by
            rw [hprivate]
            exact nofun
          have hpublic : attributeClass.uint32 ≠ ckoPublicKey := by
            rw [hprivate]
            exact nofun
          rw [if_neg hcertificate, if_neg hpublic, if_pos hprivate]
          simp only [readTemplate]
          by_cases hvalue : value.type = ckaValue
          · rw [if_pos ⟨⟨hclass.1, hclass.2, hprivate⟩, hvalue⟩]
            rfl
          · rw [if_neg fun h => hvalue h.2]
            unfold createPrivateKey
            rw [if_pos hvalue]
            rfl
        · rw [if_neg hprivate, ite_self, ite_self]
          simp only [readTemplate]
          rw [if_neg fun h => hprivate h.1.2.2]
      · unfold cCreateObject
        simp only
        rw [if_pos (not_not.mp fun h => hclass ((hshape attributeClass).mp h))]
        simp only [readTemplate]
        rw [if_neg fun h => hclass ⟨h.1.1, h.1.2.1⟩]
  | some (attributeClass :: second :: third :: fourth :: fifth :: rest) =>
      unfold cCreateObject
      simp only [ite_self]
      rfl

/-! ## The promise -/

/-- A call that has failed has changed no object, and one that has succeeded returns the handle of
an object, which is the given one. -/
structure CreatesGiven (c : ClientCredential) (pxTemplate : Option (List CKAttribute))
    (o : CreateOutcomes) (session : P11Session) (reply : Reply) : Prop where
  failed : reply.result ≠ some .ok →
    ∀ handle, reply.session.object c handle = session.object c handle
  created : reply.result = some .ok →
    ∃ template handle given, readTemplate pxTemplate = some template ∧
      reply.outputs = [.created handle] ∧ template.object o = some given ∧
      reply.session.object c handle = some given

/-- A certificate that can be parsed is a user certificate and the built-in one, and a private key
that can be parsed is the built-in one. If there is a public key, a new one can be parsed. -/
def Template.Keepable (c : ClientCredential) (o : CreateOutcomes) (session : P11Session) :
    Template → Prop
  | .certificate value certificateType =>
      o.allocated → (o.x509CrtParse value.bytes).IsParsed →
        certificateType.uint32 = 1 ∧ value.bytes = c.clientcredentialClientCertificate
  | .publicKey value => session.xPublicKey.isSome → (o.pkParsePublicKey value.bytes).isSome
  | .privateKey value =>
      o.allocated → (o.pkParseKey value.bytes).isSome →
        value.bytes = c.clientcredentialClientPrivateKey

variable {c : ClientCredential} {pxTemplate : Option (List CKAttribute)} {value : CKAttribute}

/-- A call that fails and does nothing keeps the promise. -/
theorem CreatesGiven.of_failed {result : CKRV} {outputs : List Output} (h : result ≠ .ok) :
    CreatesGiven c pxTemplate o session ⟨some result, session, keys, outputs⟩ :=
  ⟨fun _ _ => rfl, fun hok => absurd (Option.some.inj hok) h⟩

/-- A call that succeeds without changing the session keeps it just if it returns the handle of the
given object. -/
theorem creates_given_iff_object {template : Template} {handle : Nat} {given : P11Object}
    (hread : readTemplate pxTemplate = some template) (hgiven : template.object o = some given) :
    CreatesGiven c pxTemplate o session ⟨some .ok, session, keys, [.created handle]⟩ ↔
      session.object c handle = some given := by
  constructor
  · intro h
    obtain ⟨template', handle', given', hread', houtputs, hgiven', hobject⟩ := h.created rfl
    obtain rfl := Option.some.inj (hread.symm.trans hread')
    obtain rfl := Option.some.inj (hgiven.symm.trans hgiven')
    obtain rfl : handle = handle' := by
      have houtput := List.head_eq_of_cons_eq houtputs
      exact Output.created.inj houtput
    exact hobject
  · intro hobject
    exact ⟨fun hfailed => absurd rfl hfailed,
      fun _ => ⟨template, handle, given, hread, rfl, hgiven, hobject⟩⟩

theorem certificate_given_iff {certificateType : CKAttribute}
    (hread : readTemplate pxTemplate = some (.certificate value certificateType))
    (hvalue : value.type = ckaValue) :
    CreatesGiven c pxTemplate o session
        ((Template.certificate value certificateType).create o session keys) ↔
      (Template.certificate value certificateType).Keepable c o session := by
  unfold Template.create createCertificate Template.Keepable
  simp only
  rw [if_neg (not_not.mpr hvalue)]
  by_cases hallocated : o.allocated = true
  · rw [if_neg (not_not.mpr hallocated)]
    cases hparse : o.x509CrtParse value.bytes with
    | zero => exact iff_of_true (.of_failed nofun) fun _ habsurd => habsurd.elim
    | failed raw => exact iff_of_true (.of_failed nofun) fun _ habsurd => habsurd.elim
    | parsed raw =>
        simp only
        by_cases huser : certificateType.uint32 = 1
        · have hsaved : (if pkcs11PALSaveFile "ClientCert.crt" value.bytes then
              (CKRV.ok, [Output.created objectHandleCertificate]) else (.deviceError, [])) =
                (.ok, [.created objectHandleCertificate]) := rfl
          rw [if_pos huser, hsaved, creates_given_iff_object hread rfl]
          show some (P11Object.certificate c.clientcredentialClientCertificate) = _ ↔ _
          constructor
          · intro hstored _ _
            exact ⟨huser, (P11Object.certificate.inj (Option.some.inj hstored)).symm⟩
          · intro hkeepable
            rw [(hkeepable hallocated trivial).2]
        · rw [if_neg huser]
          refine iff_of_false (fun h => ?_) fun hkeepable => ?_
          · obtain ⟨_, _, _, _, habsurd, _⟩ := h.created rfl
            cases habsurd
          · exact huser (hkeepable hallocated trivial).1
  · rw [if_pos hallocated]
    exact iff_of_true (.of_failed nofun) fun habsurd => absurd habsurd hallocated

theorem public_key_given_iff (hread : readTemplate pxTemplate = some (.publicKey value))
    (hvalue : value.type = ckaValue) :
    CreatesGiven c pxTemplate o session ((Template.publicKey value).create o session keys) ↔
      (Template.publicKey value).Keepable c o session := by
  unfold Template.create createPublicKey Template.Keepable
  simp only
  rw [if_neg (not_not.mpr hvalue)]
  cases hparse : o.pkParsePublicKey value.bytes with
  | some pk =>
      refine iff_of_true ⟨fun habsurd => absurd rfl habsurd, fun _ => ?_⟩ fun _ => rfl
      refine ⟨_, objectHandlePublicKey, .publicKey pk, hread, rfl, ?_, rfl⟩
      show (o.pkParsePublicKey value.bytes).map P11Object.publicKey = _
      rw [hparse]
      rfl
  | none =>
      constructor
      · intro h hsome
        have hlost := h.failed nofun objectHandlePublicKey
        change none = session.xPublicKey.map P11Object.publicKey at hlost
        rw [Option.map_eq_none_iff.mp hlost.symm] at hsome
        exact hsome
      · intro hkeepable
        have hnone : session.xPublicKey = none := by
          cases hkey : session.xPublicKey with
          | none => rfl
          | some pk =>
              rw [hkey] at hkeepable
              exact absurd (hkeepable rfl) nofun
        have hsame : { session with xPublicKey := none } = session := by rw [← hnone]
        refine ⟨fun _ handle => ?_, fun habsurd => absurd habsurd nofun⟩
        simp only
        rw [hsame]

theorem private_key_given_iff (hread : readTemplate pxTemplate = some (.privateKey value))
    (hvalue : value.type = ckaValue) :
    CreatesGiven c pxTemplate o session ((Template.privateKey value).create o session keys) ↔
      (Template.privateKey value).Keepable c o session := by
  unfold Template.create createPrivateKey Template.Keepable
  simp only
  rw [if_neg (not_not.mpr hvalue)]
  by_cases hallocated : o.allocated = true
  · rw [if_neg (not_not.mpr hallocated)]
    cases hparse : o.pkParseKey value.bytes with
    | none => exact iff_of_true (.of_failed nofun) fun _ habsurd => absurd habsurd nofun
    | some pk =>
        have hsaved : (if pkcs11PALSaveFile "PrivateKey.key" value.bytes then
            (CKRV.ok, [Output.created objectHandlePrivateKey]) else (.deviceError, [])) =
              (.ok, [.created objectHandlePrivateKey]) := rfl
        simp only
        rw [hsaved, creates_given_iff_object hread rfl]
        show some (P11Object.privateKey c.clientcredentialClientPrivateKey) = _ ↔ _
        constructor
        · intro hstored _ _
          exact (P11Object.privateKey.inj (Option.some.inj hstored)).symm
        · intro hkeepable
          rw [hkeepable hallocated rfl]
  · rw [if_pos hallocated]
    exact iff_of_true (.of_failed nofun) fun habsurd => absurd habsurd hallocated

/-- A template that can be read has its value where it is looked for. -/
theorem read_template_value {template : Template} (h : readTemplate pxTemplate = some template) :
    template.value.type = ckaValue := by
  unfold readTemplate at h
  split at h
  · split_ifs at h with hcertificate hpublic
    · cases h
      exact hcertificate.2
    · cases h
      exact hpublic.2
  · split_ifs at h with hprivate
    cases h
    exact hprivate.2
  · cases h

/-- An attribute with a value. -/
def attributeOf (type : Nat) (value : List UInt8) : CKAttribute :=
  ⟨type, fun i => value.getD i 0, value.length⟩

/-- A public key that cannot be parsed. -/
def brokenPublicKey : List CKAttribute :=
  [attributeOf ckaClass [2, 0, 0, 0], attributeOf ckaKeyType [3, 0, 0, 0],
    attributeOf ckaValue [0]]

/-- Nothing can be parsed. -/
def nothingParsed : CreateOutcomes := ⟨true, fun _ => .zero, fun _ => none, fun _ => none⟩

end TivaAws.Pkcs11
