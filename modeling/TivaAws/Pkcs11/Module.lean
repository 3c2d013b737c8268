import TivaAws.Pkcs11.Operations

/-!
# Runs of the PKCS #11 module

An application opens and closes sessions and makes calls on the sessions that are open, with the
object handles that earlier calls have returned.
-/

namespace TivaAws.Pkcs11

open Labelled Lifetime

/-- The calls on an open session, with the results of what they call. -/
inductive SessionCall where
  | createObject (pxTemplate : Option (List CKAttribute)) (pxObject : Bool) (o : CreateOutcomes)
  | destroyObject (xObject : Nat)
  | getAttributeValue (xObject bitlen : Nat) (pxTemplate : Option (List AttributeQuery))
  | findObjectsInit (pxTemplate : Option Nat)
  | findObjects (pxObject pulObjectCount : Bool) (ulMaxObjectCount : Nat) (o : LoadOutcomes)
  | findObjectsFinal
  | digestInit (mechanism : Nat) (started : Bool)
  | digestUpdate (pPart : List UInt8) (updated : Bool)
  | digestFinal (pDigest : Bool) (pulDigestLen : Nat) (finished : Bool)
  | signInit (pxMechanism : Bool)
  | sign (pulSignatureLen pucSignature : Bool) (ulDataLen : Nat) (signed : Bool)
  | verifyInit (pxMechanism : Bool)
  | verify (pucData pucSignature verified : Bool)
  | generateKeyPair (arguments : GenerateArguments) (o : GenerateOutcomes)

/-- What a call does. -/
def SessionCall.execute (call : SessionCall) (session : P11Session) (keys : Keys) : Reply :=
  match call with
  | .createObject pxTemplate pxObject o => cCreateObject pxTemplate pxObject o session keys
  | .destroyObject xObject => cDestroyObject xObject session keys
  | .getAttributeValue xObject bitlen pxTemplate =>
      cGetAttributeValue xObject bitlen pxTemplate session keys
  | .findObjectsInit pxTemplate => cFindObjectsInit pxTemplate session keys
  | .findObjects pxObject pulObjectCount ulMaxObjectCount o =>
      cFindObjects pxObject pulObjectCount ulMaxObjectCount o session keys
  | .findObjectsFinal => cFindObjectsFinal session keys
  | .digestInit mechanism started => cDigestInit mechanism started session keys
  | .digestUpdate pPart updated => cDigestUpdate pPart updated session keys
  | .digestFinal pDigest pulDigestLen finished =>
      cDigestFinal pDigest pulDigestLen finished session keys
  | .signInit pxMechanism => cSignInit pxMechanism session keys
  | .sign pulSignatureLen pucSignature ulDataLen signed =>
      cSign pulSignatureLen pucSignature ulDataLen signed session keys
  | .verifyInit pxMechanism => cVerifyInit pxMechanism session keys
  | .verify pucData pucSignature verified => cVerify pucData pucSignature verified session keys
  | .generateKeyPair arguments o => cGenerateKeyPair arguments o session keys

/-- The block that the allocator gives to a call. -/
def SessionCall.allocated : SessionCall → Option Nat
  | .findObjects _ _ _ o => o.allocated.map Prod.fst
  | .generateKeyPair _ o => o.allocated
  | _ => none

/-- The key pointer that a call gets as an object handle. -/
def SessionCall.keyPointer : SessionCall → Option Nat
  | .destroyObject xObject => if IsKeyPointer xObject then some xObject else none
  | _ => none

/-- The calls of the module. -/
inductive Call where
  | openSession (pxSession serialSession : Bool) (allocated : Option Nat) (seeded : Bool)
  | closeSession (xSession : Nat)
  | onSession (xSession : Nat) (call : SessionCall)

/-- The open sessions, the key structures on the heap and the object handles that calls have
returned. After undefined behavior nothing happens any more. -/
structure Cryptoki where
  sessions : Nat → Option P11Session
  keys : Keys
  handles : List Nat
  halted : Bool

/-- No session and no key. -/
def Cryptoki.initial : Cryptoki := ⟨fun _ => none, fun _ => none, [], false⟩

/-- The object handles that an output returns. -/
def Output.objects : Output → List Nat
  | .found objects _ => objects
  | .generated xPrivateKey => [xPrivateKey]
  | .created xObject => [xObject]
  | _ => []

/-- The last output of a call. -/
def Reply.final (reply : Reply) : Output :=
  match reply.result with
  | some result => .returns result
  | none => .undefined

/-- `C_OpenSession`. The flags are looked at whatever the pointer is. -/
def cOpenSession (pxSession serialSession : Bool) (allocated : Option Nat) (seeded : Bool)
    (c : Cryptoki) : Cryptoki × List Output :=
  if ¬ serialSession then (c, [.returns .sessionParallelNotSupported])
  else if ¬ pxSession then (c, [.returns .argumentsBad])
  else
    match allocated with
    | none => (c, [.returns .hostMemory])
    | some xSession =>
        if seeded then
          ({ c with sessions := Function.update c.sessions xSession (some .opened) },
            [.returns .ok])
        else (c, [.returns .functionFailed])

/-- `C_CloseSession` of an open session. -/
def cCloseSession (xSession : Nat) (session : P11Session) (c : Cryptoki) :
    Cryptoki × List Output :=
  match session.pxCurrentKey with
  | none =>
      ({ c with sessions := Function.update c.sessions xSession none }, [.returns .ok])
  | some pxKey =>
      let freed := prvFreeKey pxKey c.keys
      ({ c with
          sessions := Function.update c.sessions xSession none
          keys := freed.2.1
          halted := !freed.1 },
        freed.2.2 ++ [if freed.1 then .returns .ok else .undefined])

/-- A call on an open session. -/
def callSession (xSession : Nat) (call : SessionCall) (session : P11Session) (c : Cryptoki) :
    Cryptoki × List Output :=
  let reply := call.execute session c.keys
  ({ sessions := Function.update c.sessions xSession (some reply.session)
     keys := reply.keys
     handles := c.handles ++ reply.outputs.flatMap Output.objects
     halted := reply.result.isNone },
    reply.outputs ++ [reply.final])

/-- What a call does, `none` if it cannot be made. The allocator gives out what is not in use, at
aligned addresses. -/
def step (c : Cryptoki) (call : Call) : Option (Cryptoki × List Output) :=
  if c.halted then none
  else
    match call with
    | .openSession pxSession serialSession allocated seeded =>
        if ∀ xSession ∈ allocated, c.sessions xSession = none ∧ xSession ≠ 0 then
          some (cOpenSession pxSession serialSession allocated seeded c)
        else none
    | .closeSession xSession =>
        if xSession = 0 then some (c, [.returns .sessionHandleInvalid])
        else (c.sessions xSession).map fun session => cCloseSession xSession session c
    | .onSession xSession call =>
        if (∀ pxKey ∈ call.allocated, c.keys pxKey = none ∧ IsKeyPointer pxKey) ∧
            ∀ xObject ∈ call.keyPointer, xObject ∈ c.handles then
          (c.sessions xSession).map fun session => callSession xSession call session c
        else none

/-- Runs of the module. -/
def Executes (c : Cryptoki) (labels : List Output) (c' : Cryptoki) : Prop :=
  ∃ call, step c call = some (c', labels)

end TivaAws.Pkcs11
