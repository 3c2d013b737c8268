import Mathlib.Logic.Function.Basic
import TivaAws.Foundation.ByteMemory
import TivaAws.Foundation.Lifetime

/-!
# PKCS #11 sessions and keys

Sessions and key structures of the PKCS #11 module, and the functions that handle them. A key
structure is named by its address, which is also the object handle of a generated key. The results
of allocations and of mbedTLS are parameters. `keys` is what the heap holds of key structures, and a
function that follows a key pointer to nothing has no result.
-/

namespace TivaAws.Pkcs11

open Lifetime

/-- The return codes of the port. `mbedTLS` is an error of `mbedtls_pk_setup`, passed on as it
is. -/
inductive CKRV where
  | ok
  | hostMemory
  | functionFailed
  | argumentsBad
  | attributeTypeInvalid
  | attributeValueInvalid
  | dataLenRange
  | deviceError
  | mechanismInvalid
  | operationNotInitialized
  | sessionHandleInvalid
  | sessionParallelNotSupported
  | signatureInvalid
  | bufferTooSmall
  | mbedTLS (error : Int)
  deriving DecidableEq, Repr

/-! ## Keys -/

/-- `mbedtls_pk_type_t` of a context that is set up. -/
inductive MbedPkType where
  | rsa
  | eckey
  | eckeyDh
  | ecdsa
  | rsaAlt
  | rsassaPss
  deriving DecidableEq, Repr

/-- The types with a sign function and with a verify function. -/
def MbedPkType.hasSign : MbedPkType → Bool
  | .eckeyDh => false
  | _ => true

def MbedPkType.hasVerify : MbedPkType → Bool
  | .eckeyDh | .rsaAlt => false
  | _ => true

/-- A set up `mbedtls_pk_context`: its `pk_info` and what its `pk_ctx` points to, by a name. -/
structure MbedPk where
  type : MbedPkType
  material : Nat
  deriving DecidableEq, Repr

/-- `mbedtls_x509_crt`: all zero, after a failed parse with what has been parsed so far, or after a
successful one. -/
inductive MbedX509 where
  | zero
  | failed (raw : List UInt8)
  | parsed (raw : List UInt8)
  deriving DecidableEq, Repr

/-- The bytes that `raw` points to. -/
def MbedX509.raw : MbedX509 → List UInt8
  | .zero => []
  | .failed raw => raw
  | .parsed raw => raw

/-- `P11Key_t`. `savedMbedPk` is the saved sign function with its context. -/
structure P11Key where
  xMbedPkCtx : Option MbedPk
  xMbedX509Cli : MbedX509
  savedMbedPk : Option MbedPk
  deriving DecidableEq, Repr

/-- A key structure after `memset`. -/
def P11Key.zero : P11Key := ⟨none, .zero, none⟩

/-- The key structures on the heap. -/
abbrev Keys := Nat → Option P11Key

/-- `P11Session_t` without its random number generator and its state. `xSHA256Context` is the data
that has gone into the hash, `xPublicKey` is `none` if its `pk_ctx` is `NULL`. -/
structure P11Session where
  pxCurrentKey : Option Nat
  xOperationInProgress : Option Nat
  xFindObjectInit : Bool
  xFindObjectComplete : Bool
  xFindObjectClass : Nat
  xPublicKey : Option MbedPk
  xSHA256Context : List UInt8
  deriving DecidableEq, Repr

/-- A session after `C_OpenSession`; `none` stands for `pkcs11NO_OPERATION`. -/
def P11Session.opened : P11Session := ⟨none, none, false, false, 0, none, []⟩

/-! ## What the functions do -/

/-- The values of attributes. -/
inductive AttributeData where
  | keyType (type : Nat)
  | certificate (raw : List UInt8)
  | publicKey (context : Option MbedPk)
  | bitLength (bits : Nat)
  | keyContext (context : Option MbedPk)
  deriving DecidableEq, Repr

/-- The sizes on the target. -/
def AttributeData.length : AttributeData → Nat
  | .keyType _ => 4
  | .certificate raw => raw.length
  | .publicKey _ => 8
  | .bitLength _ => 4
  | .keyContext _ => 8

/-- A `CK_ATTRIBUTE` to be filled in. `data` is what has been copied to its buffer. -/
structure AttributeQuery where
  type : Nat
  hasValue : Bool
  ulValueLen : Nat
  data : Option AttributeData
  deriving DecidableEq, Repr

/-- What the functions do, as far as keys and results are concerned. `found` has the objects that
`C_FindObjects` returns and the current key then, `operates` the key that an operation works
with. -/
inductive Output where
  | key (action : Action Nat)
  | operates (key : Option P11Key)
  | found (objects : List Nat) (key : Option P11Key)
  | generated (xPrivateKey : Nat)
  | created (xObject : Nat)
  | attributes (queries : List AttributeQuery)
  | length (length : Nat)
  | digest (data : List UInt8)
  | returns (result : CKRV)
  | undefined
  deriving DecidableEq

/-- The end of a function: its result, `none` if its behavior is undefined, and what it has done. -/
structure Reply where
  result : Option CKRV
  session : P11Session
  keys : Keys
  outputs : List Output

/-- A return without any action. -/
def Reply.done (result : CKRV) (session : P11Session) (keys : Keys) : Reply :=
  ⟨some result, session, keys, []⟩

/-- The functions' object handles for the objects of a session. -/
def objectHandlePublicKey : Nat := 1
def objectHandlePrivateKey : Nat := 2
def objectHandleCertificate : Nat := 3

/-- `CK_OBJECT_CLASS` values. -/
def ckoCertificate : Nat := 1
def ckoPublicKey : Nat := 2
def ckoPrivateKey : Nat := 3

/-- `CK_ATTRIBUTE_TYPE` values. -/
def ckaClass : Nat := 0
def ckaValue : Nat := 0x11
def ckaKeyType : Nat := 0x100
def ckaModulusBits : Nat := 0x121
def ckaPrimeBits : Nat := 0x133
def ckaEcParams : Nat := 0x180
def ckaVendorDefined : Nat := 0x80000000

/-- `CK_KEY_TYPE` values. -/
def ckkRsa : Nat := 0
def ckkEc : Nat := 3
def ckkEcdsa : Nat := 3

/-- `CK_MECHANISM_TYPE` values. -/
def ckmSha256 : Nat := 0x250
def ckmEcKeyPairGen : Nat := 0x1040

/-! ## Key structures -/

/-- `prvFreeKey` of a pointer that is not `NULL`. The result is whether there was a key. -/
def prvFreeKey (pxKey : Nat) (keys : Keys) : Bool × Keys × List Output :=
  ((keys pxKey).isSome, Function.update keys pxKey none,
    [.key (.use pxKey), .key (.release pxKey)])

/-- `prvSetupPkcs11SigningForMbedTls`. -/
def prvSetupPkcs11SigningForMbedTls (key : P11Key) : P11Key :=
  { key with savedMbedPk := key.xMbedPkCtx }

/-- The results of loading a key: the block that is allocated with what it happens to hold, the
files, and the parsers. -/
structure LoadOutcomes where
  allocated : Option (Nat × P11Key)
  certificateFile : Option (List UInt8)
  keyFile : Option (List UInt8)
  pkParseKey : List UInt8 → Option MbedPk
  x509CrtParse : List UInt8 → MbedX509
  clientcredentialClientCertificate : List UInt8
  clientcredentialClientPrivateKey : List UInt8

/-- The key field of a key structure, when a key is to be parsed. -/
def initializeKeyField (o : LoadOutcomes) (pcEncodedKey : List UInt8) : CKRV × P11Key :=
  match o.pkParseKey pcEncodedKey with
  | none => (.functionFailed, P11Key.zero)
  | some pk => (.ok, prvSetupPkcs11SigningForMbedTls { P11Key.zero with xMbedPkCtx := some pk })

/-- The certificate field of a key structure, when a certificate is to be parsed. -/
def initializeCertificateField (o : LoadOutcomes) (pcEncodedCertificate : List UInt8)
    (key : P11Key) : CKRV × P11Key :=
  let certificate := o.x509CrtParse pcEncodedCertificate
  let key := { key with xMbedX509Cli := certificate }
  match certificate with
  | .parsed _ => (.ok, key)
  | _ => (.functionFailed, key)

/-- The fields of a key structure after each other. -/
def initializeFields (o : LoadOutcomes) (pcEncodedKey pcEncodedCertificate : Option (List UInt8))
    (key : P11Key) : CKRV × P11Key :=
  let first := match pcEncodedKey with
    | none => (CKRV.ok, key)
    | some encoded => initializeKeyField o encoded
  match first.1, pcEncodedCertificate with
  | .ok, some encoded => initializeCertificateField o encoded first.2
  | _, _ => first

/-- `prvInitializeKey`. An encoded key or certificate may be `NULL`. -/
def prvInitializeKey (o : LoadOutcomes) (pcEncodedKey pcEncodedCertificate : Option (List UInt8))
    (session : P11Session) (keys : Keys) : Reply :=
  match session.pxCurrentKey with
  | none =>
      match o.allocated with
      | none => .done .hostMemory session keys
      | some (pxKey, memory) =>
          let fields := initializeFields o pcEncodedKey pcEncodedCertificate memory
          ⟨some fields.1, { session with pxCurrentKey := some pxKey },
            Function.update keys pxKey (some fields.2),
            [.key (.acquire pxKey), .key (.use pxKey)]⟩
  | some pxKey =>
      match keys pxKey with
      | none => ⟨none, session, keys, [.key (.use pxKey)]⟩
      | some memory =>
          let fields := initializeFields o pcEncodedKey pcEncodedCertificate memory
          ⟨some fields.1, session, Function.update keys pxKey (some fields.2), [.key (.use pxKey)]⟩

/-- `prvLoadAndInitializeDefaultCertificateAndKey`. -/
def prvLoadAndInitializeDefaultCertificateAndKey (o : LoadOutcomes) (session : P11Session)
    (keys : Keys) : Reply :=
  prvInitializeKey o (some (o.keyFile.getD o.clientcredentialClientPrivateKey))
    (some (o.certificateFile.getD o.clientcredentialClientCertificate)) session keys

/-! ## Objects -/

/-- `C_FindObjectsInit`, with the class in the first attribute, `none` if there is no template. -/
def cFindObjectsInit (pxTemplate : Option Nat) (session : P11Session) (keys : Keys) : Reply :=
  match pxTemplate with
  | none => .done .argumentsBad session keys
  | some objectClass =>
      .done .ok { session with
        xFindObjectInit := true
        xFindObjectComplete := false
        xFindObjectClass := objectClass } keys

/-- The object handles of a class. -/
def objectsOfClass (objectClass : Nat) : List Nat :=
  if objectClass = ckoPrivateKey then [objectHandlePrivateKey]
  else if objectClass = ckoPublicKey then [objectHandlePublicKey]
  else if objectClass = ckoCertificate then [objectHandleCertificate]
  else []

/-- The content of the current key structure. -/
def P11Session.currentKey (session : P11Session) (keys : Keys) : Option P11Key :=
  session.pxCurrentKey.bind keys

/-- The end of `C_FindObjects`, when the current key is there. -/
def returnObjects (session : P11Session) (keys : Keys) (outputs : List Output) : Reply :=
  ⟨some .ok, { session with xFindObjectComplete := true }, keys,
    outputs ++ [.found (objectsOfClass session.xFindObjectClass) (session.currentKey keys)]⟩

/-- `C_FindObjects`. The pointers are given by whether they are not `NULL`. -/
def cFindObjects (pxObject pulObjectCount : Bool) (ulMaxObjectCount : Nat) (o : LoadOutcomes)
    (session : P11Session) (keys : Keys) : Reply :=
  if ¬ pxObject ∨ ¬ pulObjectCount then .done .argumentsBad session keys
  else if session.xFindObjectInit = false then .done .operationNotInitialized session keys
  else if ulMaxObjectCount = 0 then .done .argumentsBad session keys
  else if session.xFindObjectComplete then
    ⟨some .ok, session, keys, [.found [] (session.currentKey keys)]⟩
  else if session.pxCurrentKey.isNone then
    let loaded := prvLoadAndInitializeDefaultCertificateAndKey o session keys
    if loaded.result = some .ok then returnObjects loaded.session loaded.keys loaded.outputs
    else loaded
  else returnObjects session keys []

/-- `C_FindObjectsFinal`. -/
def cFindObjectsFinal (session : P11Session) (keys : Keys) : Reply :=
  if session.xFindObjectInit = false then .done .operationNotInitialized session keys
  else
    .done .ok { session with
      xFindObjectInit := false
      xFindObjectComplete := false
      xFindObjectClass := 0 } keys

/-- The object handle is a key pointer: it is not `NULL` and not a virtual handle. -/
def IsKeyPointer (xObject : Nat) : Prop :=
  xObject ≠ 0 ∧ xObject ≠ objectHandlePrivateKey ∧ xObject ≠ objectHandlePublicKey ∧
    xObject ≠ objectHandleCertificate

instance (xObject : Nat) : Decidable (IsKeyPointer xObject) :=
  inferInstanceAs (Decidable (_ ∧ _))

/-- `C_DestroyObject`. -/
def cDestroyObject (xObject : Nat) (session : P11Session) (keys : Keys) : Reply :=
  if IsKeyPointer xObject then
    let freed := prvFreeKey xObject keys
    ⟨if freed.1 then some .ok else none, session, freed.2.1, freed.2.2⟩
  else .done .ok session keys

/-- A `CK_ATTRIBUTE` that is read. -/
structure CKAttribute where
  type : Nat
  pValue : ByteMemory
  ulValueLen : Nat

/-- The value as a `uint32_t`. -/
def CKAttribute.uint32 (attr : CKAttribute) : Nat :=
  (attr.pValue 0).toNat + (attr.pValue 1).toNat * 2 ^ 8 +
    (attr.pValue 2).toNat * 2 ^ 16 + (attr.pValue 3).toNat * 2 ^ 24

/-- The value as a string of bytes. -/
def CKAttribute.bytes (attr : CKAttribute) : List UInt8 :=
  attr.pValue.readBytes 0 attr.ulValueLen

/-- `PKCS11_PAL_SaveFile`, which saves nothing and reports success. -/
def pkcs11PALSaveFile (_fileName : String) (_data : List UInt8) : Bool := true

/-- The results of checking an object that is created: whether there is memory for it, and the
parsers. -/
structure CreateOutcomes where
  allocated : Bool
  x509CrtParse : List UInt8 → MbedX509
  pkParsePublicKey : List UInt8 → Option MbedPk
  pkParseKey : List UInt8 → Option MbedPk

/-- The certificate case of `C_CreateObject`: 1 is a user certificate. -/
def createCertificate (o : CreateOutcomes) (value certificateType : CKAttribute) :
    CKRV × List Output :=
  if value.type ≠ ckaValue then (.argumentsBad, [])
  else if ¬ o.allocated then (.hostMemory, [])
  else
    match o.x509CrtParse value.bytes with
    | .parsed _ =>
        if certificateType.uint32 = 1 then
          if pkcs11PALSaveFile "ClientCert.crt" value.bytes then
            (.ok, [.created objectHandleCertificate])
          else (.deviceError, [])
        else (.ok, [])
    | _ => (.argumentsBad, [])

/-- The public key case: the key of the session is replaced. -/
def createPublicKey (o : CreateOutcomes) (value : CKAttribute) (session : P11Session) :
    CKRV × P11Session × List Output :=
  if value.type ≠ ckaValue then (.argumentsBad, session, [])
  else
    match o.pkParsePublicKey value.bytes with
    | none => (.argumentsBad, { session with xPublicKey := none }, [])
    | some pk => (.ok, { session with xPublicKey := some pk }, [.created objectHandlePublicKey])

/-- The private key case. -/
def createPrivateKey (o : CreateOutcomes) (value : CKAttribute) : CKRV × List Output :=
  if value.type ≠ ckaValue then (.argumentsBad, [])
  else if ¬ o.allocated then (.hostMemory, [])
  else
    match o.pkParseKey value.bytes with
    | none => (.argumentsBad, [])
    | some _ =>
        if pkcs11PALSaveFile "PrivateKey.key" value.bytes then
          (.ok, [.created objectHandlePrivateKey])
        else (.deviceError, [])

/-- `C_CreateObject`. -/
def cCreateObject (pxTemplate : Option (List CKAttribute)) (pxObject : Bool) (o : CreateOutcomes)
    (session : P11Session) (keys : Keys) : Reply :=
  match pxTemplate, pxObject with
  | some (attributeClass :: second :: third :: rest), true =>
      if attributeClass.type ≠ ckaClass ∨ attributeClass.ulValueLen ≠ 4 then
        .done .argumentsBad session keys
      else if attributeClass.uint32 = ckoCertificate then
        match rest with
        | [] =>
            let created := createCertificate o second third
            ⟨some created.1, session, keys, created.2⟩
        | _ => .done .argumentsBad session keys
      else if attributeClass.uint32 = ckoPublicKey then
        match rest with
        | [] =>
            let created := createPublicKey o third session
            ⟨some created.1, created.2.1, keys, created.2.2⟩
        | _ => .done .argumentsBad session keys
      else if attributeClass.uint32 = ckoPrivateKey then
        match rest with
        | [value] =>
            let created := createPrivateKey o value
            ⟨some created.1, session, keys, created.2⟩
        | _ => .done .argumentsBad session keys
      else .done .argumentsBad session keys
  | _, _ => .done .argumentsBad session keys

end TivaAws.Pkcs11
