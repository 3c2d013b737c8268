import TivaAws.Pkcs11.Session

/-!
# Operations with the current key

The functions of the module that work with the current key of a session, and those for digests.
`followKey` follows the pointer to the current key; the code does so without a check.
-/

namespace TivaAws.Pkcs11

open Lifetime

/-- Follow the pointer to the current key, which may be `NULL` or point to nothing. -/
def followKey (session : P11Session) (keys : Keys)
    (operation : P11Key → Option CKRV) : Reply :=
  match session.pxCurrentKey with
  | none => ⟨none, session, keys, [.operates none]⟩
  | some pxKey =>
      match keys pxKey with
      | none => ⟨none, session, keys, [.key (.use pxKey)]⟩
      | some key => ⟨operation key, session, keys, [.key (.use pxKey), .operates (some key)]⟩

/-! ## Attributes -/

/-- The key type of the PKCS #11 interface. -/
def p11KeyType : MbedPkType → Nat
  | .rsa | .rsaAlt | .rsassaPss => ckkRsa
  | .eckey | .eckeyDh => ckkEc
  | .ecdsa => ckkEcdsa

/-- A value that is read from the current key. -/
def readKey (session : P11Session) (keys : Keys)
    (value : P11Key → Except CKRV AttributeData) :
    Option (Except CKRV AttributeData) × List Output :=
  match session.pxCurrentKey with
  | none => (none, [.operates none])
  | some pxKey =>
      match keys pxKey with
      | none => (none, [.key (.use pxKey)])
      | some key =>
          match value key with
          | .error error => (some (.error error), [.key (.use pxKey)])
          | .ok data => (some (.ok data), [.key (.use pxKey), .operates (some key)])

/-- The key type. The context is at the start of the key structure, so for a `NULL` key pointer
`mbedtls_pk_get_type` is called with `NULL`. -/
def keyTypeAttribute (session : P11Session) (keys : Keys) :
    Option (Except CKRV AttributeData) × List Output :=
  if session.pxCurrentKey.isNone then (some (.error .attributeValueInvalid), [])
  else
    readKey session keys fun key =>
      match key.xMbedPkCtx with
      | none => .error .attributeValueInvalid
      | some pk => .ok (.keyType (p11KeyType pk.type))

/-- The length of the key, which `mbedtls_pk_get_bitlen` reports as 0 for `NULL` and for a context
that is not set up. `bitlen` is what it finds in the context of the key. -/
def bitLengthAttribute (bitlen : Nat) (session : P11Session) (keys : Keys) :
    Option (Except CKRV AttributeData) × List Output :=
  if session.pxCurrentKey.isNone then (some (.ok (.bitLength 0)), [.operates none])
  else
    readKey session keys fun key =>
      .ok (.bitLength (if key.xMbedPkCtx.isSome then bitlen else 0))

/-- The value of an object. -/
def valueAttribute (xObject : Nat) (session : P11Session) (keys : Keys) :
    Option (Except CKRV AttributeData) × List Output :=
  if xObject = objectHandleCertificate then
    readKey session keys fun key => .ok (.certificate key.xMbedX509Cli.raw)
  else if xObject = objectHandlePublicKey then
    (some (.ok (.publicKey session.xPublicKey)), [])
  else (some (.error .argumentsBad), [])

/-- The key context, which is only read when it is copied. -/
def keyContextAttribute (query : AttributeQuery) (session : P11Session) (keys : Keys) :
    Option (Except CKRV AttributeData) × List Output :=
  if query.hasValue ∧ (AttributeData.keyContext none).length ≤ query.ulValueLen then
    readKey session keys fun key => .ok (.keyContext key.xMbedPkCtx)
  else (some (.ok (.keyContext none)), [])

/-- The data of an attribute, or an error; nothing if the behavior is undefined. -/
def attributeData (xObject bitlen : Nat) (query : AttributeQuery) (session : P11Session)
    (keys : Keys) : Option (Except CKRV AttributeData) × List Output :=
  if query.type = ckaKeyType then keyTypeAttribute session keys
  else if query.type = ckaValue then valueAttribute xObject session keys
  else if query.type = ckaModulusBits ∨ query.type = ckaPrimeBits then
    bitLengthAttribute bitlen session keys
  else if query.type = ckaVendorDefined then keyContextAttribute query session keys
  else (some (.error .attributeTypeInvalid), [])

/-- The loop of `C_GetAttributeValue`. -/
def getAttributes (xObject bitlen : Nat) (session : P11Session) (keys : Keys) :
    List AttributeQuery → Option CKRV × List AttributeQuery × List Output
  | [] => (some .ok, [], [])
  | query :: rest =>
      match attributeData xObject bitlen query session keys with
      | (none, outputs) => (none, query :: rest, outputs)
      | (some (.error error), outputs) => (some error, query :: rest, outputs)
      | (some (.ok data), outputs) =>
          if query.hasValue ∧ query.ulValueLen < data.length then
            (some .bufferTooSmall, { query with ulValueLen := data.length } :: rest, outputs)
          else
            let later := getAttributes xObject bitlen session keys rest
            (later.1,
              { query with
                ulValueLen := data.length
                data := if query.hasValue then some data else query.data } :: later.2.1,
              outputs ++ later.2.2)

/-- `C_GetAttributeValue`. -/
def cGetAttributeValue (xObject bitlen : Nat) (pxTemplate : Option (List AttributeQuery))
    (session : P11Session) (keys : Keys) : Reply :=
  match pxTemplate with
  | none => .done .argumentsBad session keys
  | some queries =>
      let filled := getAttributes xObject bitlen session keys queries
      ⟨filled.1, session, keys, filled.2.2 ++ [.attributes filled.2.1]⟩

/-! ## Signatures -/

/-- `C_SignInit` and `C_VerifyInit`, which only look at the mechanism pointer. -/
def cSignInit (pxMechanism : Bool) (session : P11Session) (keys : Keys) : Reply :=
  .done (if pxMechanism then .ok else .argumentsBad) session keys

def cVerifyInit (pxMechanism : Bool) (session : P11Session) (keys : Keys) : Reply :=
  .done (if pxMechanism then .ok else .argumentsBad) session keys

/-- `cryptoSHA256_DIGEST_BYTES`. -/
def sha256DigestBytes : Nat := 32

/-- `C_Sign`. `signed` is whether the saved sign function succeeds; there may be none. -/
def cSign (pulSignatureLen pucSignature : Bool) (ulDataLen : Nat) (signed : Bool)
    (session : P11Session) (keys : Keys) : Reply :=
  if ¬ pulSignatureLen then .done .argumentsBad session keys
  else if ¬ pucSignature then ⟨some .ok, session, keys, [.length (2048 / 8)]⟩
  else if ulDataLen ≠ sha256DigestBytes then .done .dataLenRange session keys
  else
    followKey session keys fun key =>
      if key.savedMbedPk.any fun pk => pk.type.hasSign then
        some (if signed then .ok else .functionFailed)
      else none

/-- `C_Verify`. `verified` is whether the signature is found to be right. -/
def cVerify (pucData pucSignature verified : Bool) (session : P11Session) (keys : Keys) : Reply :=
  if ¬ pucData ∨ ¬ pucSignature then .done .argumentsBad session keys
  else if session.xPublicKey.isSome then
    .done (if verified then .ok else .signatureInvalid) session keys
  else
    followKey session keys fun key =>
      if key.savedMbedPk.any fun pk => pk.type.hasVerify then
        some (if verified then .ok else .signatureInvalid)
      else none

/-! ## Generating keys -/

/-- The arguments of `C_GenerateKeyPair` that it looks at: the value of the private key's type is
checked twice, that of the public key's type never. -/
structure GenerateArguments where
  mechanism : Nat
  privateKeyType : Nat
  privateKeyValue : Nat
  publicKeyType : Nat
  ecParamsType : Nat
  ecParams : String
  deriving DecidableEq, Repr

/-- The supported options. -/
def GenerateArguments.Supported (arguments : GenerateArguments) : Prop :=
  arguments.mechanism = ckmEcKeyPairGen ∧ arguments.privateKeyType = ckaKeyType ∧
    arguments.privateKeyValue = ckkEc ∧ arguments.publicKeyType = ckaKeyType ∧
    arguments.ecParamsType = ckaEcParams ∧ arguments.ecParams = "1.2.840.10045.3.1.7"

instance (arguments : GenerateArguments) : Decidable arguments.Supported :=
  inferInstanceAs (Decidable (_ ∧ _))

/-- The results of allocating, setting up and generating a key. -/
structure GenerateOutcomes where
  allocated : Option Nat
  pkSetup : Except Int MbedPk
  ecdsaGenkey : Bool

/-- Free a new key that has not been attached to the session. -/
def discardKey (result : CKRV) (pxNewKey : Nat) (session : P11Session) (keys : Keys) : Reply :=
  ⟨some result, session, keys,
    [.key (.acquire pxNewKey), .key (.use pxNewKey), .key (.release pxNewKey)]⟩

/-- Make a new key the current key of the session, which frees the one before. -/
def attachKey (pxNewKey : Nat) (newKey : P11Key) (session : P11Session) (keys : Keys) : Reply :=
  let created := Function.update keys pxNewKey (some newKey)
  let outputs := [.key (.acquire pxNewKey), .key (.use pxNewKey)]
  match session.pxCurrentKey with
  | none =>
      ⟨some .ok, { session with pxCurrentKey := some pxNewKey }, created,
        outputs ++ [.generated pxNewKey]⟩
  | some pxKey =>
      let freed := prvFreeKey pxKey created
      if freed.1 then
        ⟨some .ok, { session with pxCurrentKey := some pxNewKey }, freed.2.1,
          outputs ++ freed.2.2 ++ [.generated pxNewKey]⟩
      else ⟨none, session, freed.2.1, outputs ++ freed.2.2⟩

/-- `C_GenerateKeyPair`. -/
def cGenerateKeyPair (arguments : GenerateArguments) (o : GenerateOutcomes)
    (session : P11Session) (keys : Keys) : Reply :=
  if ¬ arguments.Supported then .done .argumentsBad session keys
  else
    match o.allocated with
    | none => .done .hostMemory session keys
    | some pxNewKey =>
        match o.pkSetup with
        | .error error => discardKey (.mbedTLS error) pxNewKey session keys
        | .ok pk =>
            if o.ecdsaGenkey then
              attachKey pxNewKey
                (prvSetupPkcs11SigningForMbedTls { P11Key.zero with xMbedPkCtx := some pk })
                session keys
            else discardKey .functionFailed pxNewKey session keys

/-! ## Digests -/

/-- `C_DigestInit`. `started` is whether `mbedtls_sha256_starts_ret` succeeds. -/
def cDigestInit (mechanism : Nat) (started : Bool) (session : P11Session) (keys : Keys) : Reply :=
  if mechanism ≠ ckmSha256 then .done .mechanismInvalid session keys
  else if started then
    .done .ok { session with xSHA256Context := [], xOperationInProgress := some mechanism } keys
  else .done .functionFailed { session with xSHA256Context := [] } keys

/-- `C_DigestUpdate`. -/
def cDigestUpdate (pPart : List UInt8) (updated : Bool) (session : P11Session) (keys : Keys) :
    Reply :=
  if session.xOperationInProgress ≠ some ckmSha256 then
    .done .operationNotInitialized session keys
  else if updated then
    .done .ok { session with xSHA256Context := session.xSHA256Context ++ pPart } keys
  else .done .functionFailed { session with xOperationInProgress := none } keys

/-- `C_DigestFinal`; the digest is named by the data it is the digest of. -/
def cDigestFinal (pDigest : Bool) (pulDigestLen : Nat) (finished : Bool) (session : P11Session)
    (keys : Keys) : Reply :=
  if session.xOperationInProgress ≠ some ckmSha256 then
    .done .operationNotInitialized { session with xOperationInProgress := none } keys
  else if ¬ pDigest then ⟨some .ok, session, keys, [.length sha256DigestBytes]⟩
  else if pulDigestLen < sha256DigestBytes then .done .bufferTooSmall session keys
  else if finished then
    ⟨some .ok, { session with xOperationInProgress := none }, keys,
      [.digest session.xSHA256Context]⟩
  else .done .functionFailed { session with xOperationInProgress := none } keys

end TivaAws.Pkcs11
